import OfcBenchmark.PacketInTheorems

/-!
# Source addresses of the switches of a benchmark

Each PACKET_IN carries the last byte of the id of its switch in its Ethernet source address. The
ids of a benchmark follow each other, so the controller can tell its switches apart exactly if
there are no more than 256 of them (`sourcesDiffer_iff`).
-/

namespace OfcBenchmark
open ByteMemory Runs

/-! ## The switches of a benchmark -/

/-- The `dpid` of switch `i`: `params->dpidOffset + i`, passed as an `int`. -/
def switchDpid (dpidOffset : BitVec 32) (i : ℕ) : ℤ := (dpidOffset + BitVec.ofNat 32 i).toInt

/-- What `controllerBenchmarking` initializes its switches with, and the memory it finds. -/
structure BenchSwitches where
  dpidOffset : BitVec 32
  nSwitches : BitVec 32
  delay : ℤ
  mode : TestMode
  nMacAddresses : ℤ
  learnDstMacs : Bool
  switches : ℕ → Fakeswitch
  inMem : ℕ → Mem
  outMem : ℕ → Mem
  stack : ℕ → Mem

/-- Switch `i`, connected to a controller. -/
def BenchSwitches.init (b : BenchSwitches) (config : OfpSwitchConfig) (i : ℕ) (sock : Socket) :
    SwitchState where
  config := config
  fs := switchInit (b.switches i) (switchDpid b.dpidOffset i) sock BUFLEN BUFLEN_pos b.delay b.mode
    b.nMacAddresses b.learnDstMacs OFP131_VERSION (b.inMem i) (b.outMem i) (b.stack i)

/-- The PACKET_INs of two switches carry different source addresses. -/
structure SourcesDiffer (history history' : List SwitchTransition) : Prop where
  probes : ∀ m ∈ history.flatMap probesOf, ∀ m' ∈ history'.flatMap probesOf,
    (PacketIn.decode m).source ≠ (PacketIn.decode m').source
  arps : ∀ m ∈ history.flatMap arpsOf, ∀ m' ∈ history'.flatMap arpsOf,
    (PacketIn.decode m).source ≠ (PacketIn.decode m').source

/-! ## The last byte -/

/-- The last byte of the id, and so of every source address. -/
theorem switchDpid_emod (dpidOffset : BitVec 32) (i : ℕ) :
    switchDpid dpidOffset i % 256 = (dpidOffset.toNat + i : ℤ) % 256 := by
  have hdvd : (256 : ℤ) ∣ 4294967296 := by decide
  have hbmod (z : ℤ) : z.bmod 4294967296 % 4294967296 = z % 4294967296 := Int.bmod_emod
  rw [switchDpid, BitVec.toInt_eq_toNat_bmod, BitVec.toNat_add, BitVec.toNat_ofNat]
  push_cast
  rw [← Int.emod_emod_of_dvd _ hdvd, hbmod, Int.emod_emod_of_dvd _ hdvd]
  omega

/-- Bytes tell numbers below 256 apart. -/
theorem ofNat_emod_inj {a b : ℤ} (h : UInt8.ofNat (a % 256).toNat = UInt8.ofNat (b % 256).toNat) :
    a % 256 = b % 256 := by
  have hbyte := congrArg UInt8.toNat h
  rw [UInt8.toNat_ofNat', UInt8.toNat_ofNat'] at hbyte
  omega

section Switch

variable {b : BenchSwitches} {config : OfpSwitchConfig} {i : ℕ} {sock : Socket} {s' : SwitchState}
  {history : List SwitchTransition}

theorem BenchSwitches.counted_init (b : BenchSwitches) (config : OfpSwitchConfig) (i : ℕ)
    (sock : Socket) : Counted (switchDpid b.dpidOffset i) b.nMacAddresses 0 0
      (b.init config i sock).fs :=
  counted_switchInit _ _ _ _ _ _ _ _ _ _ _ _ _

/-- Every probe of a switch ends its source address with the last byte of its id. -/
theorem source_of_mem_probes (hrun : Run ProgramStep (b.init config i sock) history s')
    {m : List UInt8} (hm : m ∈ history.flatMap probesOf) :
    ∃ mac, (PacketIn.decode m).source
      = 0 :: le32 mac ++ [UInt8.ofNat (switchDpid b.dpidOffset i % 256).toNat] := by
  obtain ⟨k, hk⟩ := List.getElem?_of_mem hm
  obtain ⟨_, hprobe⟩ := isProbe_nth (b.counted_init config i sock) hrun hk
  exact ⟨_, hprobe.source_eq⟩

/-- Its gratuitous ARPs have one source address. -/
theorem source_of_mem_arps (hrun : Run ProgramStep (b.init config i sock) history s')
    {m : List UInt8} (hm : m ∈ history.flatMap arpsOf) :
    (PacketIn.decode m).source = macAddressToLearn (switchDpid b.dpidOffset i) := by
  obtain ⟨t, ht, hmem⟩ := List.mem_flatMap.mp hm
  obtain ⟨before, after, heq⟩ := List.append_of_mem ht
  have hcounted := (b.counted_init config i sock).run hrun heq
  obtain ⟨s, e, s₁⟩ := t
  rcases e with env | ⟨role, now, buf, ofph, length⟩ | env | ⟨now, st⟩ | st | ts | config
  case write =>
    change m ∈ gratuitousArps s.fs at hmem
    unfold gratuitousArps at hmem
    split at hmem
    · rw [List.mem_singleton.mp hmem, ← hcounted.id_eq]
      exact source_arpPacketIn s.fs.id s.fs.xid s.fs.bufferId
    · exact absurd hmem List.not_mem_nil
  all_goals exact absurd hmem List.not_mem_nil

end Switch

/-! ## How many switches -/

/-- Up to 256 switches end their addresses differently. -/
theorem switchDpid_emod_ne (dpidOffset : BitVec 32) {i j : ℕ} (hi : i < 256) (hj : j < 256)
    (hne : i ≠ j) : switchDpid dpidOffset i % 256 ≠ switchDpid dpidOffset j % 256 := by
  rw [switchDpid_emod, switchDpid_emod]
  omega

/-- One more ends its addresses as the first does. -/
theorem switchDpid_256_emod (dpidOffset : BitVec 32) :
    switchDpid dpidOffset 256 % 256 = switchDpid dpidOffset 0 % 256 := by
  rw [switchDpid_emod, switchDpid_emod]
  omega

theorem macAddressToLearn_ne {id id' : ℤ} (h : id % 256 ≠ id' % 256) :
    macAddressToLearn id ≠ macAddressToLearn id' := by
  intro heq
  rw [macAddressToLearn, macAddressToLearn] at heq
  simp only [List.cons.injEq, true_and, and_true] at heq
  exact h (ofNat_emod_inj heq)

/-- Different last bytes make the addresses differ. -/
theorem sourcesDiffer_of_emod_ne {b : BenchSwitches} {config config' : OfpSwitchConfig} {i j : ℕ}
    {sock sock' : Socket} {s s' : SwitchState} {history history' : List SwitchTransition}
    (hne : switchDpid b.dpidOffset i % 256 ≠ switchDpid b.dpidOffset j % 256)
    (hrun : Run ProgramStep (b.init config i sock) history s)
    (hrun' : Run ProgramStep (b.init config' j sock') history' s') :
    SourcesDiffer history history' := by
  constructor
  · intro m hm m' hm' heq
    obtain ⟨_, hsource⟩ := source_of_mem_probes hrun hm
    obtain ⟨_, hsource'⟩ := source_of_mem_probes hrun' hm'
    rw [hsource, hsource'] at heq
    have hlast := List.append_inj_right' heq (by rw [List.length_singleton, List.length_singleton])
    rw [List.cons.injEq] at hlast
    exact hne (ofNat_emod_inj hlast.1)
  · intro m hm m' hm' heq
    rw [source_of_mem_arps hrun hm, source_of_mem_arps hrun' hm'] at heq
    exact macAddressToLearn_ne hne heq

/-- The first probes of two switches with the same last byte have the same source address. -/
theorem exists_not_sourcesDiffer (b : BenchSwitches) (config : OfpSwitchConfig) {i j : ℕ}
    (heq : switchDpid b.dpidOffset i % 256 = switchDpid b.dpidOffset j % 256) :
    ∃ sock history history' s s', Run ProgramStep (b.init config i sock) history s ∧
      Run ProgramStep (b.init config j sock) history' s' ∧ ¬ SourcesDiffer history history' := by
  let sock : Socket := ⟨handshakeRequests, []⟩
  have hfirst (i : ℕ) : ∃ history s m arps, Run ProgramStep (b.init config i sock) history s ∧
      m ∈ history.flatMap probesOf ∧
      IsProbe (switchDpid b.dpidOffset i) b.nMacAddresses 0 arps m := by
    obtain ⟨history, s, hrun, hprobes, -⟩ := exists_probed config (b.switches i)
      (switchDpid b.dpidOffset i) BUFLEN BUFLEN_pos b.delay b.mode b.nMacAddresses b.learnDstMacs
      OFP131_VERSION (b.inMem i) (b.outMem i) (b.stack i)
    have hget : (history.flatMap probesOf)[0]?
        = some ((history.flatMap probesOf).head hprobes) := by
      rw [← List.head?_eq_getElem?, List.head?_eq_some_head]
    obtain ⟨arps, hprobe⟩ := isProbe_nth (b.counted_init config i sock) hrun hget
    exact ⟨history, s, _, arps, hrun, List.head_mem hprobes, hprobe⟩
  obtain ⟨history, s, m, _, hrun, hm, hprobe⟩ := hfirst i
  obtain ⟨history', s', m', _, hrun', hm', hprobe'⟩ := hfirst j
  refine ⟨sock, history, history', s, s', hrun, hrun', ?_⟩
  intro hdiffer
  apply hdiffer.probes m hm m' hm'
  rw [hprobe.source_eq, hprobe'.source_eq, heq]

/-- The switches of a benchmark always carry different source addresses exactly if there are no
more than 256 of them. -/
theorem sourcesDiffer_iff (b : BenchSwitches) :
    (∀ i < b.nSwitches.toNat, ∀ j < b.nSwitches.toNat, i ≠ j →
        ∀ config config' sock sock' history history' s s',
          Run ProgramStep (b.init config i sock) history s →
          Run ProgramStep (b.init config' j sock') history' s' → SourcesDiffer history history') ↔
      b.nSwitches.toNat ≤ 256 := by
  constructor
  · intro hall
    by_contra hmany
    obtain ⟨sock, history, history', s, s', hrun, hrun', hnot⟩ := exists_not_sourcesDiffer b
      switch_config (switchDpid_256_emod b.dpidOffset)
    apply hnot
    exact hall 256 (by omega) 0 (by omega) (by decide) _ _ _ _ _ _ _ _ hrun hrun'
  · intro hfew i hi j hj hne config config' sock sock' history history' s s' hrun hrun'
    exact sourcesDiffer_of_emod_ne
      (switchDpid_emod_ne b.dpidOffset (by omega) (by omega) hne) hrun hrun'

/-- 257 switches, numbered from 1 on. -/
def manySwitches : BenchSwitches where
  dpidOffset := 1
  nSwitches := 257
  delay := 0
  mode := .throughput
  nMacAddresses := 100000
  learnDstMacs := true
  switches := fun _ => malloced false
  inMem := fun _ _ => 0
  outMem := fun _ _ => 0
  stack := fun _ _ => 0

/-- The first and the last of them are one host to the controller. -/
theorem not_sourcesDiffer_manySwitches :
    ¬ ∀ i < manySwitches.nSwitches.toNat, ∀ j < manySwitches.nSwitches.toNat, i ≠ j →
        ∀ config config' sock sock' history history' s s',
          Run ProgramStep (manySwitches.init config i sock) history s →
          Run ProgramStep (manySwitches.init config' j sock') history' s' →
          SourcesDiffer history history' := by
  intro hall
  obtain ⟨sock, history, history', s, s', hrun, hrun', hnot⟩ :=
    exists_not_sourcesDiffer manySwitches
    switch_config (switchDpid_256_emod manySwitches.dpidOffset)
  apply hnot
  exact hall 256 (by decide) 0 (by decide) (by decide) _ _ _ _ _ _ _ _ hrun hrun'

end OfcBenchmark
