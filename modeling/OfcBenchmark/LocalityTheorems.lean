import OfcBenchmark.ReplyTheorems

/-!
# Which bytes a handler looks at

The handlers cast the message pointer to larger structures without a look at the declared
length. Handling a message is local if what follows the message in memory makes no
difference. What a handler may look at behind the message is, by type, the ethertype
`packetOutIsLldp` finds, the command of a FLOW_MOD, the structure a SET_CONFIG stores, the
type of a MULTIPART_REQUEST, and nothing else (`ofp13HandleMessage_congr`), so that locality
is a matter of the length of the message (`local_iff`).
-/

namespace OfcBenchmark
open ByteMemory Framing

/-! ## Effects -/

/-- The part of the state handling a message has an effect on. -/
structure Effect where
  count : ℤ
  probeState : ℤ
  switchStatus : HandshakeStatus
  sendPortDesc : Bool
  outbuf : List UInt8
  config : OfpSwitchConfig

def ReadState.effect (s : ReadState) : Effect where
  count := s.fs.count
  probeState := s.fs.probeState
  switchStatus := s.fs.switchStatus
  sendPortDesc := s.fs.sendPortDesc
  outbuf := s.fs.outbuf.contents
  config := s.config

section SetInbuf

variable (inbuf : Msgbuf)

/-- The switch with another input buffer. -/
def Fakeswitch.setInbuf (fs : Fakeswitch) : Fakeswitch := { fs with inbuf := inbuf }

theorem clamp_setInbuf (fs : Fakeswitch) :
    (fs.setInbuf inbuf).clamp = fs.clamp.setInbuf inbuf := by
  rw [clamp_frame, clamp_frame]
  rfl

theorem restartProbe_setInbuf (fs : Fakeswitch) :
    (fs.setInbuf inbuf).restartProbe = fs.restartProbe.setInbuf inbuf := by
  unfold Fakeswitch.restartProbe Fakeswitch.setInbuf
  dsimp only
  split <;> rfl

theorem switchChangeStatus_setInbuf (now : Timeval) (fs : Fakeswitch) (st : HandshakeStatus) :
    switchChangeStatus now (fs.setInbuf inbuf) st
      = (switchChangeStatus now fs st).setInbuf inbuf := by
  unfold switchChangeStatus switchChangeStatusNow Fakeswitch.setInbuf
  dsimp only
  split
  · split <;> rfl
  · rfl

/-- Handling a message never looks at the input buffer. -/
theorem ofp13HandleMessage_setInbuf (role : Mem) (now : Timeval) (ofph : Mem) (s : ReadState) :
    ofp13HandleMessage role now ofph { s with fs := s.fs.setInbuf inbuf }
      = { ofp13HandleMessage role now ofph s with
          fs := (ofp13HandleMessage role now ofph s).fs.setInbuf inbuf } := by
  have hdispatch : ofp13Dispatch role now ofph { s with fs := s.fs.setInbuf inbuf }
      = { ofp13Dispatch role now ofph s with
          fs := (ofp13Dispatch role now ofph s).fs.setInbuf inbuf } := by
    unfold ofp13Dispatch
    rcases Ofp131Type.ofByte (ofph 1) with - | t
    · rfl
    cases t
    case getConfigRequest =>
      exact congrArg (fun fs => ReadState.mk _ fs _) (restartProbe_setInbuf inbuf (s.fs.push _))
    case featuresRequest =>
      exact congrArg (fun fs => ReadState.mk _ fs _)
        (switchChangeStatus_setInbuf inbuf now (s.fs.push _) _)
    case packetOut =>
      by_cases hc : s.fs.switchStatus = .readyToSend ∧ packetOutIsLldp ofph = false
      · dsimp only
        rw [if_pos hc]
        exact if_pos hc
      · dsimp only
        rw [if_neg hc]
        exact if_neg hc
    case flowMod =>
      dsimp only
      by_cases hc : s.fs.switchStatus = .readyToSend ∧
        (ofph.load16 56 = htons OFPFC_ADD ∨ ofph.load16 56 = htons OFPFC_MODIFY_STRICT)
      · rw [if_pos hc]
        exact if_pos hc
      · rw [if_neg hc]
        exact if_neg hc
    case multipartRequest =>
      dsimp only
      by_cases hport : htons (ofph.load16 8) = OFPMP_PORT_DESC
      · rw [if_pos hport, if_pos hport]
        rfl
      rw [if_neg hport, if_neg hport]
      by_cases hign : htons (ofph.load16 8) = OFPMP_GROUP_FEATURES ∨
        htons (ofph.load16 8) = OFPMP_METER_FEATURES
      · rw [if_pos hign, if_pos hign]
      · rw [if_neg hign, if_neg hign]
        rfl
    all_goals rfl
  unfold ofp13HandleMessage
  rw [hdispatch]
  exact congrArg (fun fs => ReadState.mk _ fs _) (clamp_setInbuf inbuf _)

end SetInbuf

/-- The first message of `inbuf` is handled, in the state `s` but for `inbuf`. -/
def handleFirst (role : Mem) (now : Timeval) (s : ReadState) (length : ℕ) (inbuf : Msgbuf) :
    ReadState :=
  ReadState.next role now (inbuf.buf.shift inbuf.start) length
    { s with fs := s.fs.setInbuf inbuf }

theorem effect_handleFirst (role : Mem) (now : Timeval) (s : ReadState) (length : ℕ)
    (inbuf : Msgbuf) :
    (handleFirst role now s length inbuf).effect
      = (ofp13HandleMessage role now (inbuf.buf.shift inbuf.start) s).effect := by
  have h := ofp13HandleMessage_setInbuf (msgbufPull inbuf length).1 role now
    (inbuf.buf.shift inbuf.start) s
  have heff := congrArg ReadState.effect h
  exact heff

/-- Any two input buffers that start with the message `m`, and are the same or not after it,
let handling `m` have the same effect. -/
def Local (s : ReadState) (m : List UInt8) : Prop :=
  ∀ role now (b b' : Msgbuf), m <+: b.contents → m <+: b'.contents →
    (handleFirst role now s m.length b).effect = (handleFirst role now s m.length b').effect

/-- That is a matter of the memory the message pointer points to. -/
theorem local_iff_constOn (s : ReadState) (m : List UInt8) :
    Local s m ↔ ∀ role now,
      Mem.ConstOn m fun ofph => (ofp13HandleMessage role now ofph s).effect := by
  constructor
  · intro h role now μ ν hμ hν
    -- a buffer that holds the message, in the given memory
    let inbuf : Mem → Msgbuf := fun μ =>
      { buf := μ, len := m.length + 1, start := 0, stop := m.length
        start_le := Nat.zero_le _, stop_le := Nat.le_succ _, len_pos := Nat.succ_pos _ }
    have hcon : ∀ μ : Mem, μ.read 0 m.length = m → m <+: (inbuf μ).contents := by
      intro μ hμ
      rw [Msgbuf.contents]
      exact hμ ▸ List.prefix_rfl
    have heff := h role now (inbuf μ) (inbuf ν) (hcon μ hμ) (hcon ν hν)
    rw [effect_handleFirst, effect_handleFirst] at heff
    simpa only [inbuf, Mem.shift_zero] using heff
  · intro h role now b b' hb hb'
    have hread : ∀ b : Msgbuf, m <+: b.contents →
        (b.buf.shift b.start).read 0 m.length = m := by
      intro b hb
      have hle := hb.length_le
      rw [Msgbuf.length_contents, msgbufCountBuffered] at hle
      rw [Mem.read_shift, Nat.add_zero, ← Mem.take_read _ _ hle]
      exact (List.prefix_iff_eq_take.mp hb).symm
    rw [effect_handleFirst, effect_handleFirst]
    exact h role now _ _ (hread b hb) (hread b' hb')

/-! ## What a handler looks at -/

/-- The test a FLOW_MOD is counted by. -/
def commandCounts (ofph : Mem) : Prop :=
  ofph.load16 56 = htons OFPFC_ADD ∨ ofph.load16 56 = htons OFPFC_MODIFY_STRICT

/-- Messages of one type and xid differ in no other way to the handler. -/
theorem ofp13HandleMessage_congr (role : Mem) (now : Timeval) {μ ν : Mem} (s : ReadState)
    (htype : μ 1 = ν 1) (hxid : μ.load32 4 = ν.load32 4)
    (hpo : Ofp131Type.ofByte (μ 1) = some .packetOut → s.fs.switchStatus = .readyToSend →
      packetOutIsLldp μ = packetOutIsLldp ν)
    (hfm : Ofp131Type.ofByte (μ 1) = some .flowMod → s.fs.switchStatus = .readyToSend →
      (commandCounts μ ↔ commandCounts ν))
    (hsc : Ofp131Type.ofByte (μ 1) = some .setConfig → parseSetConfig μ = parseSetConfig ν)
    (hmp : Ofp131Type.ofByte (μ 1) = some .multipartRequest → μ.load16 8 = ν.load16 8) :
    ofp13HandleMessage role now μ s = ofp13HandleMessage role now ν s := by
  have hdispatch : ofp13Dispatch role now μ s = ofp13Dispatch role now ν s := by
    unfold ofp13Dispatch
    rw [← htype, ← hxid]
    rcases ht : Ofp131Type.ofByte (μ 1) with - | t
    · rfl
    cases t
    case packetOut =>
      by_cases hready : s.fs.switchStatus = .readyToSend
      · rw [hpo ht hready]
      · dsimp only
        rw [if_neg fun h => hready h.1, if_neg fun h => hready h.1]
    case flowMod =>
      dsimp only
      by_cases hready : s.fs.switchStatus = .readyToSend
      · exact if_congr (and_congr_right fun _ => hfm ht hready) rfl rfl
      · rw [if_neg fun h => hready h.1, if_neg fun h => hready h.1]
    case setConfig =>
      dsimp only
      rw [hsc ht]
    case multipartRequest =>
      dsimp only
      rw [hmp ht]
    all_goals rfl
  unfold ofp13HandleMessage
  rw [hdispatch]

/-! ## Looking behind the message -/

/-- `packetOutIsLldp` looks behind the message: at the ethertype where it expects it, at its
second byte when the first does not decide, or past a VLAN tag. -/
def PacketOutLeaks (m : List UInt8) : Prop :=
  let b := Mem.ofList m
  let ethertype := 28 + b.be16 14
  m.length ≤ ethertype ∨
    m.length = ethertype + 1 ∧ (b ethertype = 0x88 ∨ b ethertype = 0x81) ∨
    ethertype + 2 ≤ m.length ∧ b.be16 ethertype = ETHERTYPE_VLAN ∧
      (m.length ≤ ethertype + 56 ∨ m.length = ethertype + 57 ∧ b (ethertype + 56) = 0x88)

/-- The command of a FLOW_MOD is looked for behind the message, and its first byte does not
decide. -/
def FlowModLeaks (m : List UInt8) : Prop :=
  m.length ≤ 56 ∨ m.length = 57 ∧ Mem.ofList m 56 = 0

theorem packetOutIsLldp_iff (po : Mem) :
    packetOutIsLldp po = true ↔
      po.be16 (28 + po.be16 14) = ETHERTYPE_LLDP ∨
        po.be16 (28 + po.be16 14) = ETHERTYPE_VLAN ∧
          po.be16 (28 + po.be16 14 + 56) = ETHERTYPE_LLDP := by
  unfold packetOutIsLldp
  dsimp only
  rw [htons, htons, htons, Mem.bswap16_load16, Mem.bswap16_load16, Mem.bswap16_load16,
    show 16 + po.be16 14 + 12 = 28 + po.be16 14 by omega,
    show 16 + po.be16 14 + 4 * 14 + 12 = 28 + po.be16 14 + 56 by omega, beq_iff_eq]
  split
  case isTrue hvlan =>
    rw [hvlan]
    exact ⟨fun h => .inr ⟨rfl, h⟩, fun h => h.elim (fun h => by cases h) And.right⟩
  case isFalse hvlan => exact ⟨.inl, fun h => h.elim id fun h => absurd h.1 hvlan⟩

theorem commandCounts_iff (ofph : Mem) :
    commandCounts ofph ↔ ofph 56 = 0 ∧ (ofph 57 = 0 ∨ ofph 57 = 2) := by
  have hlo := (ofph 56).toNat_lt
  have hhi := (ofph 57).toNat_lt
  have h56 : ofph 56 = 0 ↔ (ofph 56).toNat = 0 := UInt8.toNat_inj.symm
  have h57 : ofph 57 = 0 ↔ (ofph 57).toNat = 0 := UInt8.toNat_inj.symm
  have h57' : ofph 57 = 2 ↔ (ofph 57).toNat = 2 := UInt8.toNat_inj.symm
  rw [h56, h57, h57']
  show (ofph 56).toNat + 256 * (ofph 57).toNat = 0 ∨
    (ofph 56).toNat + 256 * (ofph 57).toNat = 512 ↔ _
  omega

section Agree

variable {m : List UInt8} {μ ν : Mem}

/-- Memories that start with the same message agree on a field inside it. -/
theorem be16_eq_of_read_eq (hμ : μ.read 0 m.length = m) {p : ℕ} (hp : p + 2 ≤ m.length) :
    μ.be16 p = (Mem.ofList m).be16 p :=
  Mem.be16_congr (Mem.apply_of_read_eq hμ (by omega)) (Mem.apply_of_read_eq hμ (by omega))

/-- A network-order field decides for a value by its first byte. -/
theorem be16_ne_of_first {p v : ℕ} (h : (μ p).toNat ≠ v / 256) : μ.be16 p ≠ v := by
  have hlt := (μ (p + 1)).toNat_lt
  unfold Mem.be16
  omega

end Agree

/-- Where nothing leaks, the ethertype test is a matter of the message. -/
theorem constOn_packetOutIsLldp {m : List UInt8} (h : ¬ PacketOutLeaks m) :
    Mem.ConstOn m packetOutIsLldp := by
  unfold PacketOutLeaks at h
  dsimp only at h
  obtain ⟨e, he⟩ : ∃ e, e = 28 + (Mem.ofList m).be16 14 := ⟨_, rfl⟩
  rw [← he] at h
  push Not at h
  obtain ⟨hlen, hfirst, hvlan⟩ := h
  -- both memories have the ethertype at the same place
  have hiff : ∀ μ : Mem, μ.read 0 m.length = m → (packetOutIsLldp μ = true ↔
      μ.be16 e = ETHERTYPE_LLDP ∨ μ.be16 e = ETHERTYPE_VLAN ∧
        μ.be16 (e + 56) = ETHERTYPE_LLDP) := by
    intro μ hμ
    have hactions : μ.be16 14 = (Mem.ofList m).be16 14 := be16_eq_of_read_eq hμ (by omega)
    rw [packetOutIsLldp_iff, hactions, ← he]
  intro μ ν hμ hν
  rw [Bool.eq_iff_iff, hiff μ hμ, hiff ν hν]
  by_cases htwo : e + 2 ≤ m.length
  · rw [be16_eq_of_read_eq hμ htwo, be16_eq_of_read_eq hν htwo]
    by_cases houter : (Mem.ofList m).be16 e = ETHERTYPE_VLAN
    · -- the tag is there, so enough of the inner ethertype is there as well
      obtain ⟨hin, hinner⟩ := hvlan htwo houter
      by_cases hall : e + 58 ≤ m.length
      · rw [be16_eq_of_read_eq hμ hall, be16_eq_of_read_eq hν hall]
      · have hbyte := hinner (by omega)
        have hne : ∀ μ : Mem, μ.read 0 m.length = m → μ.be16 (e + 56) ≠ ETHERTYPE_LLDP := by
          intro μ hμ
          refine be16_ne_of_first fun heq => hbyte ?_
          rw [← Mem.apply_of_read_eq hμ (by omega)]
          exact UInt8.toNat_inj.mp heq
        rw [iff_false_intro (hne μ hμ), iff_false_intro (hne ν hν)]
    · rw [iff_false_intro houter, false_and, false_and]
  · -- one byte of the ethertype is there, and it is that of no type looked for
    obtain ⟨hlldp, hvl⟩ := hfirst (by omega)
    have hne : ∀ μ : Mem, μ.read 0 m.length = m →
        ¬ (μ.be16 e = ETHERTYPE_LLDP ∨ μ.be16 e = ETHERTYPE_VLAN ∧
          μ.be16 (e + 56) = ETHERTYPE_LLDP) := by
      intro μ hμ
      have hbyte : μ e = Mem.ofList m e := Mem.apply_of_read_eq hμ (by omega)
      rintro (hl | ⟨hv, -⟩)
      · refine be16_ne_of_first (fun heq => hlldp ?_) hl
        rw [← hbyte]
        exact UInt8.toNat_inj.mp heq
      · refine be16_ne_of_first (fun heq => hvl ?_) hv
        rw [← hbyte]
        exact UInt8.toNat_inj.mp heq
    exact iff_of_false (hne μ hμ) (hne ν hν)

/-- Bytes added from `p` on leave the place of the ethertype alone. -/
theorem packetOutIsLldp_ofListWith_iff (m later : List UInt8) {p : ℕ} (hp : 16 ≤ p) :
    packetOutIsLldp (Mem.ofListWith m p later) = true ↔
      (Mem.ofListWith m p later).be16 (28 + (Mem.ofList m).be16 14) = ETHERTYPE_LLDP ∨
      (Mem.ofListWith m p later).be16 (28 + (Mem.ofList m).be16 14) = ETHERTYPE_VLAN ∧
        (Mem.ofListWith m p later).be16 (28 + (Mem.ofList m).be16 14 + 56)
          = ETHERTYPE_LLDP := by
  have hactions : (Mem.ofListWith m p later).be16 14 = (Mem.ofList m).be16 14 :=
    Mem.be16_ofListWith_of_le m later (by omega)
  rw [packetOutIsLldp_iff, hactions]

/-- Where something leaks, bytes after the message turn it into an LLDP packet. -/
theorem exists_packetOutIsLldp {m : List UInt8} (h : PacketOutLeaks m) :
    packetOutIsLldp (Mem.ofList m) = false ∧
      ∃ p later, packetOutIsLldp (Mem.ofListWith m p later) = true := by
  unfold PacketOutLeaks at h
  dsimp only at h
  rw [← Bool.not_eq_true, packetOutIsLldp_iff]
  have hwith := fun p later => packetOutIsLldp_ofListWith_iff (p := p) m later
  obtain ⟨e, he⟩ : ∃ e, e = 28 + (Mem.ofList m).be16 14 := ⟨_, rfl⟩
  rw [← he] at h hwith ⊢
  have hzero : ∀ i, m.length ≤ i → Mem.ofList m i = 0 := fun i => Mem.ofList_apply_of_ge
  have hinner : (Mem.ofList m).be16 e = ETHERTYPE_VLAN → m.length ≤ e + 56 →
      ¬ ((Mem.ofList m).be16 e = ETHERTYPE_LLDP ∨ (Mem.ofList m).be16 e = ETHERTYPE_VLAN ∧
          (Mem.ofList m).be16 (e + 56) = ETHERTYPE_LLDP) ∧
        ∃ p later, packetOutIsLldp (Mem.ofListWith m p later) = true := by
    intro hv hle
    refine ⟨?_, e + 56, [0x88, 0xcc], (hwith _ _ (by omega)).mpr (.inr ⟨?_, ?_⟩)⟩
    · rw [hv, Mem.be16, hzero _ (by omega), hzero _ (by omega)]
      decide
    · rw [Mem.be16_ofListWith_of_le m _ (by omega), hv]
    · rw [Mem.be16_ofListWith_two _ _ hle]
      rfl
  rcases h with hle | ⟨hlen, h88 | h81⟩ | ⟨htwo, hv, hle | ⟨hlen, h88⟩⟩
  · -- the ethertype is behind the message
    refine ⟨?_, e, [0x88, 0xcc], (hwith _ _ (by omega)).mpr (.inl ?_)⟩
    · rw [Mem.be16, hzero _ (by omega), hzero _ (by omega)]
      rintro (h | ⟨h, -⟩) <;> exact absurd h (by decide)
    · rw [Mem.be16_ofListWith_two _ _ hle]
      rfl
  · -- its second byte is
    refine ⟨?_, e + 1, [0xcc], (hwith _ _ (by omega)).mpr (.inl ?_)⟩
    · rw [Mem.be16, h88, hzero _ (by omega)]
      rintro (h | ⟨h, -⟩) <;> exact absurd h (by decide)
    · rw [Mem.be16_ofListWith_one _ hlen, h88]
      rfl
  · -- or it begins as a VLAN tag does, and zeros follow
    refine hinner ?_ (by omega)
    rw [Mem.be16, h81, hzero _ (by omega)]
    rfl
  · exact hinner hv hle
  · refine ⟨?_, e + 56 + 1, [0xcc], (hwith _ _ (by omega)).mpr (.inr ⟨?_, ?_⟩)⟩
    · rw [hv, Mem.be16, h88, hzero _ (by omega)]
      decide
    · rw [Mem.be16_ofListWith_of_le m _ (by omega), hv]
    · rw [Mem.be16_ofListWith_one _ hlen, h88]
      rfl

theorem constOn_packetOutIsLldp_iff (m : List UInt8) :
    Mem.ConstOn m packetOutIsLldp ↔ ¬ PacketOutLeaks m := by
  refine ⟨?_, constOn_packetOutIsLldp⟩
  intro h hleak
  obtain ⟨hfalse, p, later, htrue⟩ := exists_packetOutIsLldp hleak
  rw [h.eq_ofList, hfalse] at htrue
  cases htrue

/-- The command test is a matter of the message unless the command is behind it. -/
theorem constOn_commandCounts_iff (m : List UInt8) :
    Mem.ConstOn m commandCounts ↔ ¬ FlowModLeaks m := by
  unfold FlowModLeaks
  constructor
  · intro h hleak
    have hzero : Mem.ofList m 56 = 0 := by
      rcases hleak with hle | ⟨-, h0⟩
      · exact Mem.ofList_apply_of_ge hle
      · exact h0
    -- with zeros behind the message the command is ADD, with a one there it is not
    have heq := h.eq_ofList 57 [1]
    have hyes : commandCounts (Mem.ofList m) :=
      (commandCounts_iff _).mpr ⟨hzero, .inl (Mem.ofList_apply_of_ge (by omega))⟩
    have hno : ¬ commandCounts (Mem.ofListWith m 57 [1]) := by
      rw [commandCounts_iff]
      have h57 : Mem.ofListWith m 57 [1] (57 + 0) = 1 :=
        Mem.ofListWith_apply m (by simp) (by omega)
      rw [Nat.add_zero] at h57
      rw [h57]
      rintro ⟨-, h | h⟩ <;> cases h
    exact hno (heq ▸ hyes)
  · intro h μ ν hμ hν
    push Not at h
    obtain ⟨hlen, h57⟩ := h
    have hiff : ∀ μ : Mem, μ.read 0 m.length = m → μ 56 = Mem.ofList m 56 :=
      fun μ hμ => Mem.apply_of_read_eq hμ (by omega)
    rw [eq_iff_iff, commandCounts_iff, commandCounts_iff, hiff μ hμ, hiff ν hν]
    by_cases hall : 58 ≤ m.length
    · rw [Mem.apply_of_read_eq hμ (by omega), Mem.apply_of_read_eq hν (by omega)]
    · have hne := h57 (by omega)
      exact iff_of_false (fun h => hne h.1) (fun h => hne h.1)

/-- A SET_CONFIG is stored whole. -/
theorem constOn_parseSetConfig_iff (m : List UInt8) :
    Mem.ConstOn m parseSetConfig ↔ 12 ≤ m.length := by
  constructor
  · intro h
    by_contra hlen
    -- the last byte of `miss_send_len` is behind a shorter message
    have heq := congrArg OfpSwitchConfig.miss_send_len (h.eq_ofList 11 [1])
    have h10 : Mem.ofListWith m 11 [1] 10 = Mem.ofList m 10 :=
      Mem.ofListWith_apply_of_ne m (by omega)
    have h11 : Mem.ofListWith m 11 [1] (11 + 0) = 1 := Mem.ofListWith_apply m (by simp) (by omega)
    rw [Nat.add_zero] at h11
    have h0 : Mem.ofList m 11 = 0 := Mem.ofList_apply_of_ge (by omega)
    simp only [parseSetConfig, OfpSwitchConfig.load, Mem.load16, h10, h11, h0] at heq
    exact absurd (Nat.add_left_cancel heq) (by decide)
  · intro h μ ν hμ hν
    have hb : ∀ i < 12, μ i = ν i := fun i hi => by
      rw [Mem.apply_of_read_eq hμ (by omega), Mem.apply_of_read_eq hν (by omega)]
    simp only [parseSetConfig, OfpSwitchConfig.load, OfpHeader.load, Mem.load32, Mem.load16,
      hb 0 (by omega), hb 1 (by omega), hb 2 (by omega), hb 3 (by omega), hb 4 (by omega),
      hb 5 (by omega), hb 6 (by omega), hb 7 (by omega), hb 8 (by omega), hb 9 (by omega),
      hb 10 (by omega), hb 11 (by omega)]

/-- A multipart reply repeats the type of its request. -/
theorem replyBytes_multipart_nine {role ofph : Mem} {s : ReadState}
    (ht : Ofp131Type.ofByte (ofph 1) = some .multipartRequest)
    (hmp : ¬ (ofph.be16 8 = OFPMP_GROUP_FEATURES ∨ ofph.be16 8 = OFPMP_METER_FEATURES)) :
    Mem.ofList (replyBytes role ofph s) 9 = ofph 9 := by
  have hsize := ofp13MakeMultipartReply_size (ofph.be16 8) (ofph.load32 4) s.buf
  have hle : 16 ≤ Ofp131Type.multipartReply.replySize (ofph.be16 8) := by
    unfold Ofp131Type.replySize
    dsimp only
    split_ifs <;> omega
  have hnine : (ofp13MakeMultipartReply (ofph.be16 8) (ofph.load32 4) s.buf).1 9
      = UInt8.ofNat (htons (ofph.be16 8) / 256) := by
    unfold ofp13MakeMultipartReply
    dsimp only
    split_ifs <;> rfl
  have hback : htons (ofph.be16 8) / 256 = (ofph 9).toNat := by
    rw [← Mem.bswap16_load16, show bswap16 (ofph.load16 8) = htons (ofph.load16 8) from rfl,
      htons_htons (Mem.load16_lt ofph 8)]
    show ((ofph 8).toNat + 256 * (ofph 9).toNat) / 256 = (ofph 9).toNat
    have := (ofph 8).toNat_lt
    omega
  unfold replyBytes
  rw [ht]
  dsimp only
  rw [htons, Mem.bswap16_load16, if_neg hmp, hsize, ofList_read_zero (by omega), hnine, hback,
    UInt8.ofNat_toNat]

/-! ## Locality -/

/-- The length a message needs for its handler to stay inside it. -/
def StaysInside (status : HandshakeStatus) (m : List UInt8) : Prop :=
  match Ofp131Type.ofByte (Mem.ofList m 1) with
  | some .packetOut => status = .readyToSend → ¬ PacketOutLeaks m
  | some .flowMod => status = .readyToSend → ¬ FlowModLeaks m
  | some .setConfig => 12 ≤ m.length
  | some .multipartRequest => 10 ≤ m.length
  | _ => True

section Local

variable {s : ReadState} {role : Mem} {now : Timeval} {μ ν : Mem}

/-- With the same effect, two messages are both counted or both not. -/
theorem counted_iff_of_effect_eq
    (h : (ofp13HandleMessage role now μ s).effect = (ofp13HandleMessage role now ν s).effect) :
    counted s.fs μ ↔ counted s.fs ν := by
  have hcount := congrArg Effect.count h
  simp only [ReadState.effect, ofp13HandleMessage_count] at hcount
  -- else `count` would differ by one
  by_cases hμ : counted s.fs μ <;> by_cases hν : counted s.fs ν <;> simp_all

theorem counted_iff_of_packetOut (hready : s.fs.switchStatus = .readyToSend)
    (ht : Ofp131Type.ofByte (μ 1) = some .packetOut) :
    counted s.fs μ ↔ packetOutIsLldp μ = false := by
  simp [counted, hready, ht]

theorem counted_iff_of_flowMod (hready : s.fs.switchStatus = .readyToSend)
    (ht : Ofp131Type.ofByte (μ 1) = some .flowMod) : counted s.fs μ ↔ commandCounts μ := by
  simp [counted, commandCounts, hready, ht]

variable {m : List UInt8}

/-- Memories that start with a complete message agree on its type. -/
theorem WellFormed.type_eq (hm : WellFormed m) (hμ : μ.read 0 m.length = m) :
    μ 1 = Mem.ofList m 1 := by
  have hlen := hm.header_le
  exact Mem.apply_of_read_eq hμ (by omega)

theorem Local.not_packetOutLeaks (h : Local s m) (hm : WellFormed m)
    (ht : Ofp131Type.ofByte (Mem.ofList m 1) = some .packetOut)
    (hready : s.fs.switchStatus = .readyToSend) : ¬ PacketOutLeaks m := by
  rw [← constOn_packetOutIsLldp_iff]
  intro μ ν hμ hν
  have hiff := counted_iff_of_effect_eq
    ((local_iff_constOn s m).mp h (fun _ => 0) ⟨0, 0⟩ μ ν hμ hν)
  rw [counted_iff_of_packetOut hready (by rw [hm.type_eq hμ, ht]),
    counted_iff_of_packetOut hready (by rw [hm.type_eq hν, ht])] at hiff
  exact Bool.eq_iff_iff.mpr (by simpa using not_congr hiff)

theorem Local.not_flowModLeaks (h : Local s m) (hm : WellFormed m)
    (ht : Ofp131Type.ofByte (Mem.ofList m 1) = some .flowMod)
    (hready : s.fs.switchStatus = .readyToSend) : ¬ FlowModLeaks m := by
  rw [← constOn_commandCounts_iff]
  intro μ ν hμ hν
  have hiff := counted_iff_of_effect_eq
    ((local_iff_constOn s m).mp h (fun _ => 0) ⟨0, 0⟩ μ ν hμ hν)
  rw [counted_iff_of_flowMod hready (by rw [hm.type_eq hμ, ht]),
    counted_iff_of_flowMod hready (by rw [hm.type_eq hν, ht])] at hiff
  exact propext hiff

theorem Local.setConfig_length (h : Local s m) (hm : WellFormed m)
    (ht : Ofp131Type.ofByte (Mem.ofList m 1) = some .setConfig) : 12 ≤ m.length := by
  rw [← constOn_parseSetConfig_iff]
  intro μ ν hμ hν
  have hconfig := congrArg Effect.config
    ((local_iff_constOn s m).mp h (fun _ => 0) ⟨0, 0⟩ μ ν hμ hν)
  simp only [ReadState.effect, ofp13HandleMessage_config, hm.type_eq hμ, hm.type_eq hν, ht]
    at hconfig
  exact hconfig

/-- With its second byte behind the message, the type in a multipart reply would not be
determined. -/
theorem Local.multipart_length (h : Local s m) (hm : WellFormed m)
    (ht : Ofp131Type.ofByte (Mem.ofList m 1) = some .multipartRequest) : 10 ≤ m.length := by
  by_contra hshort
  have hread : ∀ v, (Mem.ofListWith m 9 [v]).read 0 m.length = m :=
    fun v => Mem.read_ofListWith m 9 [v]
  have h9 : ∀ v, Mem.ofListWith m 9 [v] 9 = v := by
    intro v
    have h : Mem.ofListWith m 9 [v] (9 + 0) = v := Mem.ofListWith_apply m one_pos (by omega)
    rwa [Nat.add_zero] at h
  -- neither of the two types tried is ignored
  have hnine : ∀ v : UInt8, v.toNat = 1 ∨ v.toNat = 2 → Mem.ofList (replyBytes (fun _ => 0)
      (Mem.ofListWith m 9 [v]) s) 9 = v := by
    intro v hv
    rw [replyBytes_multipart_nine (by rw [hm.type_eq (hread v), ht]), h9]
    rw [Mem.be16, h9]
    simp only [OFPMP_GROUP_FEATURES, OFPMP_METER_FEATURES]
    omega
  have hout := congrArg Effect.outbuf
    ((local_iff_constOn s m).mp h (fun _ => 0) ⟨0, 0⟩ _ _ (hread 1) (hread 2))
  simp only [ReadState.effect, ofp13HandleMessage_outbuf] at hout
  have h1 := hnine 1 (.inl rfl)
  rw [List.append_cancel_left hout, hnine 2 (.inr rfl)] at h1
  exact absurd h1 (by decide)

end Local

/-- Handling a complete message is local exactly when its handler stays inside it. -/
theorem local_iff (s : ReadState) (m : List UInt8) (hm : WellFormed m) :
    Local s m ↔ StaysInside s.fs.switchStatus m := by
  unfold StaysInside
  constructor
  · intro h
    split
    case h_1 ht => exact h.not_packetOutLeaks hm ht
    case h_2 ht => exact h.not_flowModLeaks hm ht
    case h_3 ht => exact h.setConfig_length hm ht
    case h_4 ht => exact h.multipart_length hm ht
    case h_5 => trivial
  · intro h
    rw [local_iff_constOn]
    intro role now μ ν hμ hν
    have hlen := hm.header_le
    -- the header is in the message, so type and xid are the same
    have hb : ∀ i < 8, μ i = ν i := fun i hi => by
      rw [Mem.apply_of_read_eq hμ (by omega), Mem.apply_of_read_eq hν (by omega)]
    have hxid : μ.load32 4 = ν.load32 4 := by
      simp only [Mem.load32, Mem.load16, hb 4 (by omega), hb 5 (by omega), hb 6 (by omega),
        hb 7 (by omega)]
    refine congrArg ReadState.effect (ofp13HandleMessage_congr role now s (hb 1 (by omega)) hxid
      ?_ ?_ ?_ ?_)
    all_goals
      rw [hm.type_eq hμ]
      intro ht
      rw [ht] at h
    · exact fun hready => constOn_packetOutIsLldp (h hready) μ ν hμ hν
    · exact fun hready => iff_of_eq ((constOn_commandCounts_iff m).mpr (h hready) μ ν hμ hν)
    · exact (constOn_parseSetConfig_iff m).mpr h μ ν hμ hν
    · have h10 : 10 ≤ m.length := h
      have h8 : μ 8 = ν 8 := by
        rw [Mem.apply_of_read_eq hμ (by omega), Mem.apply_of_read_eq hν (by omega)]
      have h9 : μ 9 = ν 9 := by
        rw [Mem.apply_of_read_eq hμ (by omega), Mem.apply_of_read_eq hν (by omega)]
      rw [Mem.load16, Mem.load16, h8, h9]

/-- A switch that waits for responses. -/
def readySwitch : ReadState :=
  let s := readState (readUpTo 0) switch_config (connectedSwitch .latency [])
  { s with fs := switchChangeStatusNow s.fs .readyToSend }

theorem local_iff_setConfig : Local readySwitch setConfig ↔ StaysInside .readyToSend setConfig :=
  local_iff readySwitch setConfig (by decide)

/-- A PACKET_OUT of an Ethernet frame of type IPv4, with `in_port` OFPP_CONTROLLER. -/
def packetOutFromController : List UInt8 :=
  [4, 13, 0, 38, 0, 0, 0, 1, 255, 255, 255, 255, 255, 255, 255, 253, 0, 0, 0, 0, 0, 0, 0, 0,
   2, 0, 0, 0, 0, 2, 2, 0, 0, 0, 0, 1, 8, 0]

/-- The low half of the port is taken for the length of the actions, and the ethertype is
looked for 65561 bytes on. -/
theorem not_local_packetOutFromController :
    WellFormed packetOutFromController ∧ ¬ Local readySwitch packetOutFromController := by
  have hm : WellFormed packetOutFromController := by decide
  exact ⟨hm, fun h => h.not_packetOutLeaks hm rfl rfl (.inl (by decide))⟩

end OfcBenchmark
