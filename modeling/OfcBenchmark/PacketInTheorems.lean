import OfcBenchmark.ReadyTheorems

/-!
# PACKET_INs on the wire

What the two builders of PACKET_INs put on the wire, read back at the offsets of
`openflow131.h`.

The probes of a switch are numbered through its buffer ids, its `xid`s and the source addresses
of their frames (`probe_sequence`). The frame of a gratuitous ARP is never what its template says
(`not_encodesArp`): the template is copied to another place.
-/

namespace OfcBenchmark
open ByteMemory Runs

/-! ## The layout -/

/-- The fields of a PACKET_IN. -/
structure PacketIn where
  length : ℕ
  xid : ℕ
  buffer_id : ℕ
  total_len : ℕ
  frameOffset : ℕ
  frame : List UInt8
deriving DecidableEq, Repr

/-- A PACKET_IN as `struct ofp131_packet_in` lays it out. Behind the match, which is padded to a
multiple of 8 bytes, come two bytes and then the frame. -/
def PacketIn.decode (bs : List UInt8) : PacketIn :=
  let m := Mem.ofList bs
  let frameOffset := 24 + (m.be16 26 + 7) / 8 * 8 + 2
  { length := m.be16 2
    xid := m.be32 4
    buffer_id := m.be32 8
    total_len := m.be16 12
    frameOffset := frameOffset
    frame := bs.drop frameOffset }

/-- The Ethernet source address of its frame. -/
def PacketIn.source (p : PacketIn) : List UInt8 := (p.frame.drop 6).take 6

theorem toUnsigned_lt (w : ℕ) (z : ℤ) : toUnsigned w z < 2 ^ w := by
  have hpos : (0 : ℤ) < 2 ^ w := by positivity
  have hlt := Int.emod_lt_of_pos z hpos
  have hnonneg := Int.emod_nonneg z hpos.ne'
  rw [toUnsigned]
  zify
  rwa [Int.toNat_of_nonneg hnonneg]

theorem toUnsigned_natCast (w n : ℕ) : toUnsigned w n = n % 2 ^ w := by
  rw [toUnsigned]
  exact_mod_cast Int.toNat_natCast _

/-- A number that fits is stored as it is. -/
theorem toUnsigned_of_lt {w : ℕ} {z : ℤ} (h : 0 ≤ z) (hlt : z < 2 ^ w) :
    toUnsigned w z = z.toNat := by
  rw [toUnsigned, Int.emod_eq_of_lt h hlt]

/-- Where the two builders put the numbers. -/
theorem PacketIn.decode_eq {bs : List UInt8} {xid bufferId : ℤ} {length total_len k : ℕ}
    (hlength : (Mem.ofList bs).be16 2 = length)
    (hxid : (Mem.ofList bs).read 4 4 = le32 (htonl (toUnsigned 32 xid)))
    (hbuffer : (Mem.ofList bs).read 8 4 = le32 (htonl (toUnsigned 32 bufferId)))
    (htotal : (Mem.ofList bs).be16 12 = total_len)
    (hmatch : (Mem.ofList bs).be16 26 = k) :
    PacketIn.decode bs
      = { length := length, xid := toUnsigned 32 xid, buffer_id := toUnsigned 32 bufferId
          total_len := total_len, frameOffset := 24 + (k + 7) / 8 * 8 + 2
          frame := bs.drop (24 + (k + 7) / 8 * 8 + 2) } := by
  have hxid32 : toUnsigned 32 xid % 4294967296 = toUnsigned 32 xid :=
    Nat.mod_eq_of_lt (toUnsigned_lt 32 xid)
  have hbuffer32 : toUnsigned 32 bufferId % 4294967296 = toUnsigned 32 bufferId :=
    Nat.mod_eq_of_lt (toUnsigned_lt 32 bufferId)
  unfold PacketIn.decode
  dsimp only
  rw [hlength, htotal, hmatch, Mem.be32_of_read hxid, Mem.be32_of_read hbuffer, hxid32, hbuffer32]

/-- `HTON_OXM_HDR` turns the header around. -/
theorem htonOxmHdr_eq (m : Mem) (p : ℕ) :
    htonOxmHdr m p = m.write p [m (p + 3), m (p + 2), m (p + 1), m p] := by
  rw [htonOxmHdr, htonl, Mem.le32_bswap32_load32]

/-! ## Probes -/

section ProbeBytes

variable (switch_id xid buffer_id mac_address : ℤ)

/-- The bytes of a probe. -/
def probeBytes : List UInt8 :=
  let idByte := UInt8.ofNat (toUnsigned 8 switch_id)
  [0x04, 0x0a, 0x00, 0x52] ++ le32 (htonl (toUnsigned 32 xid)) ++
  le32 (htonl (toUnsigned 32 buffer_id)) ++
  [0x00, 0x28, 0x00, 0x00, 0x00, 0x00, 0x00, 0x00, 0x00, 0x00, 0x00, 0x00, 0x00, 0x01, 0x00, 0x0c,
   0x80, 0x00, 0x00, 0x04, 0x00, 0x00, 0x00, 0x04, 0x00, 0x00, 0x00, 0x00, 0x00, 0x00,
   0x08, 0x00, 0x45, 0x00, 0x00, idByte, 0x00] ++ le32 (toUnsigned 32 mac_address) ++
  [idByte, 0x08, 0x00] ++ fakePacketIn.drop 56

theorem read_ofp13MakePacketIn (buf : Mem) :
    (ofp13MakePacketIn switch_id xid buffer_id buf mac_address).1.read 0 82
      = probeBytes switch_id xid buffer_id mac_address := by
  unfold ofp13MakePacketIn writeOxm
  simp only [htonOxmHdr_eq]
  rfl

theorem decode_probeBytes :
    PacketIn.decode (probeBytes switch_id xid buffer_id mac_address)
      = { length := 82, xid := toUnsigned 32 xid, buffer_id := toUnsigned 32 buffer_id
          total_len := 40, frameOffset := 42
          frame := (probeBytes switch_id xid buffer_id mac_address).drop 42 } :=
  PacketIn.decode_eq (k := 12) rfl rfl rfl rfl rfl

theorem source_probeBytes :
    (PacketIn.decode (probeBytes switch_id xid buffer_id mac_address)).source
      = 0 :: le32 (toUnsigned 32 mac_address) ++ [UInt8.ofNat (toUnsigned 8 switch_id)] := by
  rw [decode_probeBytes]
  rfl

end ProbeBytes

/-! ## Counting -/

/-- The counters of a switch after `k` probes and `arps` gratuitous ARPs. -/
structure Counted (id nMacAddresses : ℤ) (k arps : ℕ) (fs : Fakeswitch) : Prop where
  id_eq : fs.id = id
  nMacAddresses_eq : fs.nMacAddresses = nMacAddresses
  xid_eq : fs.xid = 1 + k + arps
  macAddress_eq : fs.macAddress = k % nMacAddresses
  bufferId_eq : fs.bufferId = (k + 1) % NUM_BUFFER_IDS

theorem emod_natCast_nonneg (k : ℕ) (n : ℤ) : 0 ≤ (k : ℤ) % n := by
  rcases eq_or_ne n 0 with rfl | hne
  · rw [Int.emod_zero]
    exact Int.natCast_nonneg k
  · exact Int.emod_nonneg _ hne

namespace Counted

variable {id nMacAddresses : ℤ} {k arps : ℕ} {fs : Fakeswitch}

/-- A probe is the next one of its switch. -/
theorem queueProbe (h : Counted id nMacAddresses k arps fs) (buf : Mem) :
    Counted id nMacAddresses (k + 1) arps (queueProbe buf fs) := by
  have hrest := emod_natCast_nonneg k nMacAddresses
  have hmacAddress : (fs.macAddress + 1).tmod fs.nMacAddresses
      = ((k + 1 : ℕ) : ℤ) % nMacAddresses := by
    rw [h.macAddress_eq, h.nMacAddresses_eq, Int.tmod_eq_emod_of_nonneg (by omega),
      Int.emod_add_emod, Nat.cast_succ]
  have hbufferId : (fs.bufferId + 1).tmod NUM_BUFFER_IDS
      = (((k + 1 : ℕ) : ℤ) + 1) % NUM_BUFFER_IDS := by
    rw [h.bufferId_eq, Int.tmod_eq_emod_of_nonneg (by rw [NUM_BUFFER_IDS]; omega),
      Int.emod_add_emod, Nat.cast_succ]
  have hxid : fs.xid + 1 = 1 + ((k + 1 : ℕ) : ℤ) + arps := by
    rw [h.xid_eq, Nat.cast_succ]
    ring
  exact ⟨h.id_eq, h.nMacAddresses_eq, hxid, hmacAddress, hbufferId⟩

theorem queueProbe_iterate (h : Counted id nMacAddresses k arps fs) (buf : Mem) (n : ℕ) :
    Counted id nMacAddresses (k + n) arps ((OfcBenchmark.queueProbe buf)^[n] fs) := by
  induction n with
  | zero => exact h
  | succ n ih =>
    rw [Function.iterate_succ_apply']
    exact ih.queueProbe buf

/-- The gratuitous ARP takes an `xid` too. -/
theorem learn (h : Counted id nMacAddresses k arps fs) :
    Counted id nMacAddresses k (arps + 1) (ofp13SwitchLearnDstmac fs) := by
  have hxid : fs.xid + 1 = 1 + (k : ℤ) + ((arps + 1 : ℕ) : ℤ) := by
    rw [h.xid_eq, Nat.cast_succ]
    ring
  exact ⟨h.id_eq, h.nMacAddresses_eq, hxid, h.macAddress_eq, h.bufferId_eq⟩

theorem switchChangeStatus (h : Counted id nMacAddresses k arps fs) (now : Timeval)
    (st : HandshakeStatus) :
    Counted id nMacAddresses k arps (switchChangeStatus now fs st) := by
  obtain ⟨_, _, _, _, _, hframe⟩ := switchChangeStatus_frame now fs st
  rw [hframe]
  exact ⟨h.id_eq, h.nMacAddresses_eq, h.xid_eq, h.macAddress_eq, h.bufferId_eq⟩

/-- A write step counts what it queues. -/
theorem writeStep (h : Counted id nMacAddresses k arps fs) (env : WriteEnv) :
    Counted id nMacAddresses (k + (probes env.buf fs).length) (arps + (gratuitousArps fs).length)
      (writeStep env fs) := by
  by_cases hready : fs.switchStatus = .readyToSend
  · rw [writeStep_ready env hready, probes, if_pos hready, List.length_map, List.length_range,
      gratuitousArps_of_ne (by rw [hready]; decide)]
    exact h.queueProbe_iterate env.buf (sendCount fs)
  rw [probes_of_ne hready]
  by_cases hlearn : fs.switchStatus = .learnDstmac
  · rw [gratuitousArps, if_pos hlearn, OfcBenchmark.writeStep, hlearn]
    exact h.learn.switchChangeStatus env.now .readyToSend
  · obtain ⟨_, _, _, _, _, -, hframe⟩ := writeStep_of_ne env hready hlearn
    rw [gratuitousArps_of_ne hlearn, hframe]
    exact ⟨h.id_eq, h.nMacAddresses_eq, h.xid_eq, h.macAddress_eq, h.bufferId_eq⟩

/-- So does every step. -/
theorem step {s s' : SwitchState} {e : SwitchEvent} (h : Counted id nMacAddresses k arps s.fs)
    (hstep : ProgramStep s e s') :
    Counted id nMacAddresses (k + (probesOf ⟨s, e, s'⟩).length) (arps + (arpsOf ⟨s, e, s'⟩).length)
      s'.fs := by
  cases programMove_of_step hstep with
  | receive env => exact ⟨h.id_eq, h.nMacAddresses_eq, h.xid_eq, h.macAddress_eq, h.bufferId_eq⟩
  | message role now buf ofph length hnext =>
    obtain ⟨_, _, _, _, _, _, _, hframe⟩ := ofp13HandleMessage_frame role now ofph
      (ReadState.pull ⟨s.config, s.fs, buf⟩ length)
    show Counted id nMacAddresses k arps (ofp13HandleMessage role now ofph _).fs
    rw [hframe]
    exact ⟨h.id_eq, h.nMacAddresses_eq, h.xid_eq, h.macAddress_eq, h.bufferId_eq⟩
  | write env =>
    have hwrite := h.writeStep env
    obtain ⟨_, _, hframe⟩ := ofp13SwitchHandleWrite_frame env s.fs
    show Counted id nMacAddresses (k + (probes env.buf s.fs).length)
      (arps + (gratuitousArps s.fs).length) (ofp13SwitchHandleWrite env s.fs)
    rw [hframe]
    exact ⟨hwrite.id_eq, hwrite.nMacAddresses_eq, hwrite.xid_eq, hwrite.macAddress_eq,
      hwrite.bufferId_eq⟩
  | getCount ts inbuf sock pulled hcount =>
    exact ⟨h.id_eq, h.nMacAddresses_eq, h.xid_eq, h.macAddress_eq, h.bufferId_eq⟩
  | configure config => exact h

end Counted

/-- Before each step of a run, the switch has counted what the steps so far have queued. -/
theorem Counted.run {id nMacAddresses : ℤ} {s s' : SwitchState} {history : List SwitchTransition}
    (h : Counted id nMacAddresses 0 0 s.fs) (hrun : Run ProgramStep s history s')
    {before after : List SwitchTransition}
    {t : SwitchTransition} (heq : history = before ++ t :: after) :
    Counted id nMacAddresses (before.flatMap probesOf).length (before.flatMap arpsOf).length
      t.pre.fs := by
  let counted : List SwitchTransition → SwitchState → Prop := fun past s =>
    Counted id nMacAddresses (past.flatMap probesOf).length (past.flatMap arpsOf).length s.fs
  have hsteps : ∀ past s e s', counted past s → ProgramStep s e s' →
      counted (past ++ [⟨s, e, s'⟩]) s' := by
    intro past s e s' hpast hstep
    have hnext := Counted.step hpast hstep
    dsimp only [counted]
    rw [List.flatMap_append, List.flatMap_append, List.length_append, List.length_append,
      List.flatMap_singleton, List.flatMap_singleton]
    exact hnext
  have hstart : counted [] s := h
  exact (hrun.invariant_history hsteps hstart).2 before t after heq

/-! ## The sequence -/

/-- The `k`-th probe of a switch that has queued `arps` gratuitous ARPs before it, as the
controller reads it. -/
structure IsProbe (id nMacAddresses : ℤ) (k arps : ℕ) (m : List UInt8) : Prop where
  buffer_id_eq : (PacketIn.decode m).buffer_id = ((k : ℤ) + 1) % NUM_BUFFER_IDS
  xid_eq : (PacketIn.decode m).xid = (1 + k + arps) % 2 ^ 32
  source_eq : (PacketIn.decode m).source
    = 0 :: le32 ((k : ℤ) % nMacAddresses).toNat ++ [UInt8.ofNat (id % 256).toNat]
  length_eq : (PacketIn.decode m).length = m.length
  frame_eq : m.length = (PacketIn.decode m).frameOffset + (PacketIn.decode m).total_len

theorem isProbe_probe {id nMacAddresses : ℤ} {k arps : ℕ} {fs : Fakeswitch}
    (h : Counted id nMacAddresses k arps fs) (buf : Mem) :
    IsProbe id nMacAddresses k arps (probe buf fs) := by
  have hprobe : probe buf fs = probeBytes fs.id fs.xid fs.bufferId fs.macAddress :=
    read_ofp13MakePacketIn fs.id fs.xid fs.bufferId fs.macAddress buf
  have hid : 0 ≤ ((k : ℤ) + 1) % NUM_BUFFER_IDS ∧ ((k : ℤ) + 1) % NUM_BUFFER_IDS < 2 ^ 32 := by
    rw [NUM_BUFFER_IDS]
    omega
  have hmac : le32 (toUnsigned 32 ((k : ℤ) % nMacAddresses))
      = le32 ((k : ℤ) % nMacAddresses).toNat := by
    obtain ⟨n, hn⟩ := Int.eq_ofNat_of_zero_le (emod_natCast_nonneg k nMacAddresses)
    rw [hn, toUnsigned_natCast, Int.toNat_natCast]
    exact Mem.le32_mod n
  rw [hprobe]
  refine ⟨?_, ?_, ?_, ?_, ?_⟩
  · rw [decode_probeBytes, h.bufferId_eq]
    dsimp only
    rw [toUnsigned_of_lt hid.1 hid.2]
    exact Int.toNat_of_nonneg hid.1
  · rw [decode_probeBytes, h.xid_eq]
    exact_mod_cast toUnsigned_natCast 32 (1 + k + arps)
  · rw [source_probeBytes, h.macAddress_eq, h.id_eq, hmac]
    rfl
  · rw [decode_probeBytes]
    rfl
  · rw [decode_probeBytes]
    rfl

/-- The probes a step queues follow each other. -/
theorem isProbe_of_getElem? {id nMacAddresses : ℤ} {k arps i : ℕ} {t : SwitchTransition}
    {m : List UInt8} (h : Counted id nMacAddresses k arps t.pre.fs)
    (hm : (probesOf t)[i]? = some m) : IsProbe id nMacAddresses (k + i) arps m := by
  obtain ⟨s, e, s'⟩ := t
  rcases e with env | ⟨role, now, buf, ofph, length⟩ | env | ⟨now, st⟩ | st | ts | config
  case write =>
    change (probes env.buf s.fs)[i]? = some m at hm
    unfold probes at hm
    split at hm
    · rw [List.getElem?_map, Option.map_eq_some_iff] at hm
      obtain ⟨j, hj, rfl⟩ := hm
      obtain ⟨hlt, hget⟩ := List.getElem?_eq_some_iff.mp hj
      rw [List.getElem_range] at hget
      rw [← hget]
      exact isProbe_probe (h.queueProbe_iterate env.buf _) env.buf
    · exact absurd hm nofun
  all_goals exact absurd hm nofun

/-- The `k`-th probe of a run. -/
theorem isProbe_nth {id nMacAddresses : ℤ} {s s' : SwitchState} {history : List SwitchTransition}
    (h : Counted id nMacAddresses 0 0 s.fs) (hrun : Run ProgramStep s history s') {k : ℕ}
    {m : List UInt8} (hm : (history.flatMap probesOf)[k]? = some m) :
    ∃ arps, IsProbe id nMacAddresses k arps m := by
  obtain ⟨before, t, after, i, heq, hi, rfl⟩ := exists_of_getElem?_flatMap hm
  exact ⟨_, isProbe_of_getElem? (h.run hrun heq) hi⟩

/-- Less than `n` numbers apart, remainders differ. -/
theorem emod_ne_emod {n : ℤ} {i j : ℕ} (hlt : i < j) (hclose : (j : ℤ) < i + n) :
    (i : ℤ) % n ≠ j % n := by
  intro heq
  rw [eq_comm, Int.emod_eq_emod_iff_emod_sub_eq_zero,
    Int.emod_eq_of_lt (by omega) (by omega)] at heq
  omega

/-- The probes of a run in their order, and how near to each other two of them can be alike. -/
structure ProbeSequence (id nMacAddresses : ℤ) (history : List SwitchTransition) : Prop where
  isProbe : ∀ before t after, history = before ++ t :: after → ∀ i m, (probesOf t)[i]? = some m →
    IsProbe id nMacAddresses ((before.flatMap probesOf).length + i) (before.flatMap arpsOf).length m
  source_ne : ∀ (i j : ℕ) m m', i < j → (j : ℤ) < i + nMacAddresses →
    (history.flatMap probesOf)[i]? = some m → (history.flatMap probesOf)[j]? = some m' →
    (PacketIn.decode m).source ≠ (PacketIn.decode m').source
  buffer_id_ne : ∀ (i j : ℕ) m m', i < j → (j : ℤ) < i + NUM_BUFFER_IDS →
    (history.flatMap probesOf)[i]? = some m → (history.flatMap probesOf)[j]? = some m' →
    (PacketIn.decode m).buffer_id ≠ (PacketIn.decode m').buffer_id

theorem probeSequence_of_counted {id nMacAddresses : ℤ} {s s' : SwitchState}
    {history : List SwitchTransition} (h : Counted id nMacAddresses 0 0 s.fs)
    (hmac : 1 ≤ nMacAddresses) (hint : nMacAddresses < 2 ^ 31)
    (hrun : Run ProgramStep s history s') : ProbeSequence id nMacAddresses history := by
  refine ⟨?_, ?_, ?_⟩
  · intro before t after heq i m hm
    exact isProbe_of_getElem? (h.run hrun heq) hm
  · intro i j m m' hlt hclose hi hj hsource
    obtain ⟨_, hm⟩ := isProbe_nth h hrun hi
    obtain ⟨_, hm'⟩ := isProbe_nth h hrun hj
    rw [hm.source_eq, hm'.source_eq, List.cons_append, List.cons_append, List.cons.injEq] at hsource
    have hmod := Mem.le32_inj (List.append_cancel_right hsource.2)
    have hi0 := emod_natCast_nonneg i nMacAddresses
    have hj0 := emod_natCast_nonneg j nMacAddresses
    have hi1 : (i : ℤ) % nMacAddresses < nMacAddresses := Int.emod_lt_of_pos _ (by omega)
    have hj1 : (j : ℤ) % nMacAddresses < nMacAddresses := Int.emod_lt_of_pos _ (by omega)
    apply emod_ne_emod hlt hclose
    omega
  · intro i j m m' hlt hclose hi hj hbuffer
    obtain ⟨_, hm⟩ := isProbe_nth h hrun hi
    obtain ⟨_, hm'⟩ := isProbe_nth h hrun hj
    have hnear : ((j + 1 : ℕ) : ℤ) < ((i + 1 : ℕ) : ℤ) + NUM_BUFFER_IDS := by
      push_cast
      omega
    apply emod_ne_emod (Nat.succ_lt_succ hlt) hnear
    rw [Nat.cast_succ, Nat.cast_succ, ← hm.buffer_id_eq, ← hm'.buffer_id_eq, hbuffer]

/-- What a switch has sent or buffered is what it started with and what was queued. -/
theorem sent_run {s s' : SwitchState} {history : List SwitchTransition}
    (hrun : Run ProgramStep s history s') :
    s'.fs.sent = s.fs.sent ++ (history.flatMap queued).flatten := by
  induction hrun with
  | nil s => exact (List.append_nil _).symm
  | cons hfirst _ ih =>
    rw [ih, sent_step hfirst, List.flatMap_cons, List.flatten_append, List.append_assoc]

/-- The HELLO of a switch. -/
def hello (version : UInt8) : List UInt8 :=
  OfpHeader.bytes { version := version, type := OFPT_HELLO, length := htons OfpHeader.size,
                    xid := htonl 1 }

section ProbeSequence

variable (config : OfpSwitchConfig) (fs : Fakeswitch) (dpid : ℤ) (sock : Socket) (bufsize : ℕ)
  (h : 0 < bufsize) (delay : ℤ) (mode : TestMode) (nMacAddresses : ℤ) (learnDstMac : Bool)
  (version : UInt8) (inMem outMem stack : Mem)

/-- A new switch has its HELLO to send. -/
theorem sent_switchInit :
    (switchInit fs dpid sock bufsize h delay mode nMacAddresses learnDstMac version inMem outMem
      stack).sent = sock.tx ++ hello version := by
  have hempty : (msgbufNew outMem bufsize h).contents = [] := rfl
  unfold switchInit hello
  simp only [Fakeswitch.sent, push_contents, push_sock]
  rw [hempty, List.nil_append]

theorem counted_switchInit :
    Counted dpid nMacAddresses 0 0 (switchInit fs dpid sock bufsize h delay mode nMacAddresses
      learnDstMac version inMem outMem stack) := by
  refine ⟨rfl, rfl, rfl, ?_, rfl⟩
  rw [Nat.cast_zero, Int.zero_emod]
  rfl

/-- In every run from `switchInit` on, what the switch queues goes to its connection behind the
HELLO, and the probes among it are numbered. -/
theorem probe_sequence (hmac : 1 ≤ nMacAddresses) (hint : nMacAddresses < 2 ^ 31)
    (history : List SwitchTransition) (s' : SwitchState)
    (hrun : Run ProgramStep
      ⟨config, switchInit fs dpid sock bufsize h delay mode nMacAddresses learnDstMac version inMem
        outMem stack⟩ history s') :
    s'.fs.sent = sock.tx ++ hello version ++ (history.flatMap queued).flatten ∧
      ProbeSequence dpid nMacAddresses history := by
  constructor
  · rw [sent_run hrun,
      ← sent_switchInit fs dpid sock bufsize h delay mode nMacAddresses learnDstMac]
  · exact probeSequence_of_counted (counted_switchInit fs dpid sock bufsize h delay mode
      nMacAddresses learnDstMac version inMem outMem stack) hmac hint hrun

end ProbeSequence

/-- A switch that learns before it queues its first probe. -/
theorem probe_sequence_learning :
    ∃ history s', Run ProgramStep (mallocedSwitch false ⟨handshakeRequests, []⟩) history s' ∧
      history.flatMap probesOf ≠ [] ∧ history.flatMap arpsOf ≠ [] ∧
      s'.fs.sent = hello OFP131_VERSION ++ (history.flatMap queued).flatten ∧
      ProbeSequence 1 100000 history := by
  obtain ⟨history, s', hrun, hprobes, harps⟩ := exists_probed switch_config (malloced false) 1
    BUFLEN BUFLEN_pos 0 .latency 100000 true OFP131_VERSION (fun _ => 0) (fun _ => 0) (fun _ => 0)
  obtain ⟨hsent, hsequence⟩ := probe_sequence switch_config (malloced false) 1
    ⟨handshakeRequests, []⟩ BUFLEN BUFLEN_pos 0 .latency 100000 true OFP131_VERSION (fun _ => 0)
    (fun _ => 0) (fun _ => 0) (by decide) (by decide) history s' hrun
  exact ⟨history, s', hrun, hprobes, harps rfl, hsent, hsequence⟩

/-! ## Gratuitous ARPs -/

section ArpBytes

variable (id xid bufferId : ℤ)

/-- The address a switch makes known. -/
def macAddressToLearn : List UInt8 := [0x80, 0x00, 0x00, 0x00, 0x00, UInt8.ofNat (toUnsigned 8 id)]

/-- And the one of its protocol. -/
def ipAddressToLearn : List UInt8 := [192, 168, 233, UInt8.ofNat (toUnsigned 8 id)]

/-- The frame `gratuitous_arp_reply` is the template of: the addresses are those of the switch. -/
def arpFrame : List UInt8 :=
  let frame := Mem.ofList gratuitousArpReply
  let frame := frame.write 6 (macAddressToLearn id)
  let frame := frame.write 22 (macAddressToLearn id)
  let frame := frame.write 28 (ipAddressToLearn id)
  let frame := frame.write 32 (macAddressToLearn id)
  let frame := frame.write 38 (ipAddressToLearn id)
  frame.read 0 64

/-- The PACKET_IN that is pushed. -/
def arpPacketIn : List UInt8 :=
  let r := ofp13LearnDstmacPacketIn id xid bufferId
  r.1.read 0 r.2

/-- Its bytes. -/
def arpBytes : List UInt8 :=
  [0x04, 0x0a, 0x00, 0x80] ++ le32 (htonl (toUnsigned 32 xid)) ++
  le32 (htonl (toUnsigned 32 bufferId)) ++
  ([0x00, 0x40, 0x00, 0x00, 0x00, 0x00, 0x00, 0x00, 0x00, 0x00, 0x00, 0x00, 0x00, 0x01, 0x00, 0x0a,
    0x80, 0x00, 0x2a, 0x02, 0x00, 0x02, 0x00, 0x00, 0x00, 0x00, 0x00, 0x00, 0x00, 0x00,
    0x00, 0x00, 0x00, 0x00, 0x00, 0x00] ++ macAddressToLearn id ++
   ([0x08, 0x06, 0x00, 0x01, 0x08, 0x00, 0x06, 0x04, 0x00, 0x02] ++ macAddressToLearn id ++
    ipAddressToLearn id ++ macAddressToLearn id ++ ipAddressToLearn id ++ List.replicate 44 0))

set_option maxRecDepth 2000 in
theorem arpPacketIn_eq : arpPacketIn id xid bufferId = arpBytes id xid bufferId := by
  unfold arpPacketIn ofp13LearnDstmacPacketIn writeOxm
  simp only [htonOxmHdr_eq]
  rfl

/-- Its header says 128 bytes, which were pushed, and its frame should begin 42 bytes in and have
64. -/
theorem decode_arpPacketIn :
    PacketIn.decode (arpPacketIn id xid bufferId)
      = { length := 128, xid := toUnsigned 32 xid, buffer_id := toUnsigned 32 bufferId
          total_len := 64, frameOffset := 42, frame := (arpBytes id xid bufferId).drop 42 } := by
  have hlength : (Mem.ofList (arpBytes id xid bufferId)).be16 2 = 128 := rfl
  have htotal : (Mem.ofList (arpBytes id xid bufferId)).be16 12 = 64 := rfl
  have hmatch : (Mem.ofList (arpBytes id xid bufferId)).be16 26 = 10 := rfl
  have hxid : (Mem.ofList (arpBytes id xid bufferId)).read 4 4
      = le32 (htonl (toUnsigned 32 xid)) := rfl
  have hbuffer : (Mem.ofList (arpBytes id xid bufferId)).read 8 4
      = le32 (htonl (toUnsigned 32 bufferId)) := rfl
  rw [arpPacketIn_eq]
  exact PacketIn.decode_eq hlength hxid hbuffer htotal hmatch

theorem source_arpPacketIn :
    (PacketIn.decode (arpPacketIn id xid bufferId)).source = macAddressToLearn id := by
  rw [decode_arpPacketIn]
  rfl

/-- What the message would be if it were the template that is sent. -/
structure EncodesArp : Prop where
  /-- The buffer has 512 bytes, and what is behind it stays zero. -/
  inside : ∀ a ≥ 512, (ofp13LearnDstmacPacketIn id xid bufferId).1 a = 0
  length_eq : (PacketIn.decode (arpPacketIn id xid bufferId)).length
    = (arpPacketIn id xid bufferId).length
  frame_length_eq : (arpPacketIn id xid bufferId).length
    = (PacketIn.decode (arpPacketIn id xid bufferId)).frameOffset
      + (PacketIn.decode (arpPacketIn id xid bufferId)).total_len
  frame_eq : (PacketIn.decode (arpPacketIn id xid bufferId)).frame = arpFrame id

/-- The template is written 832 bytes behind the buffer. -/
theorem template_outside :
    (ofp13LearnDstmacPacketIn id xid bufferId).1.read 1344 64 = gratuitousArpReply := by
  unfold ofp13LearnDstmacPacketIn
  dsimp only
  -- the addresses and the headers are written in front of it
  iterate 7 rw [Mem.read_write_of_ge]
  · exact Mem.read_write_self _ 1344 gratuitousArpReply
  all_goals exact of_decide_eq_true rfl

/-- The destination of the frame stays zero. -/
theorem destination_arpPacketIn :
    (PacketIn.decode (arpPacketIn id xid bufferId)).frame.take 6 = List.replicate 6 0 := by
  rw [decode_arpPacketIn]
  rfl

/-- The frame is said to end 22 bytes before the message does. -/
theorem frame_length_arpPacketIn :
    (PacketIn.decode (arpPacketIn id xid bufferId)).frameOffset
        + (PacketIn.decode (arpPacketIn id xid bufferId)).total_len + 22
      = (arpPacketIn id xid bufferId).length := by
  rw [decode_arpPacketIn, arpPacketIn_eq]
  rfl

theorem not_of_frame_length : ¬ EncodesArp id xid bufferId := by
  intro h
  have hsaid := frame_length_arpPacketIn id xid bufferId
  have hlength := h.frame_length_eq
  omega

/-- It never is: the template is written behind the buffer, the frame is not addressed to all, and
the lengths do not agree. -/
theorem not_encodesArp :
    ¬ EncodesArp id xid bufferId ∧
      (ofp13LearnDstmacPacketIn id xid bufferId).1.read 1344 64 = gratuitousArpReply ∧
      (PacketIn.decode (arpPacketIn id xid bufferId)).frame.take 6 = List.replicate 6 0 ∧
      (PacketIn.decode (arpPacketIn id xid bufferId)).frameOffset
          + (PacketIn.decode (arpPacketIn id xid bufferId)).total_len + 22
        = (arpPacketIn id xid bufferId).length :=
  ⟨not_of_frame_length id xid bufferId, template_outside id xid bufferId,
    destination_arpPacketIn id xid bufferId, frame_length_arpPacketIn id xid bufferId⟩

end ArpBytes

/-- The gratuitous ARP of the first switch. -/
theorem not_encodesArp_firstSwitch : ¬ EncodesArp 1 1 1 := not_of_frame_length 1 1 1

end OfcBenchmark
