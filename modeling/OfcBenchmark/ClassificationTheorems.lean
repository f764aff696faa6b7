import OfcBenchmark.LocalityTheorems

/-!
# Which messages count as responses

In OpenFlow 1.3 the frame of a PACKET_OUT begins behind the actions, 24 bytes into the
message, and the command of a FLOW_MOD is its byte 25. The handlers use the structures of
OpenFlow 1.0 instead, where `actions_len` is the low half of what is now `in_port` and
`command` lies in what is now the match. `credits_iff_isResponse_iff` says when the two
agree.
-/

namespace OfcBenchmark
open ByteMemory

/-! ## OpenFlow 1.3 -/

/-- The ethertype of the frame in an OpenFlow 1.3 PACKET_OUT, if it has one. -/
def frameEthertype (m : List UInt8) : Option ℕ :=
  let frame := 24 + (Mem.ofList m).be16 16
  if frame + 14 ≤ m.length then some ((Mem.ofList m).be16 (frame + 12)) else none

/-- The command of an OpenFlow 1.3 FLOW_MOD. -/
def flowModCommand (m : List UInt8) : ℕ := (Mem.ofList m 25).toNat

/-- A response to a probe. -/
def IsResponse (m : List UInt8) : Prop :=
  match Ofp131Type.ofByte (Mem.ofList m 1) with
  | some .packetOut => frameEthertype m ≠ some ETHERTYPE_LLDP
  | some .flowMod => flowModCommand m = OFPFC_ADD ∨ flowModCommand m = OFPFC_MODIFY_STRICT
  | _ => False

/-- A PACKET_OUT with all its actions, or a FLOW_MOD with at least an empty match. -/
structure WellFormedResponse (m : List UInt8) : Prop where
  wellFormed : WellFormed m
  version_eq : Mem.ofList m 0 = OFP131_VERSION
  body_le : Ofp131Type.ofByte (Mem.ofList m 1) = some .packetOut ∧
      24 + (Mem.ofList m).be16 16 ≤ m.length ∨
    Ofp131Type.ofByte (Mem.ofList m 1) = some .flowMod ∧ 56 ≤ m.length

/-! ## What the handler does -/

/-- Handling the message counts a response: `count` goes up and `probeState` down, though
not below zero. -/
def Credits (role : Mem) (now : Timeval) (ofph : Mem) (s : ReadState) : Prop :=
  (ofp13HandleMessage role now ofph s).fs.count = s.fs.count + 1 ∧
    (ofp13HandleMessage role now ofph s).fs.probeState = max 0 (s.fs.probeState - 1)

instance (role : Mem) (now : Timeval) (ofph : Mem) (s : ReadState) :
    Decidable (Credits role now ofph s) := inferInstanceAs (Decidable (_ ∧ _))

theorem credits_iff_counted (role : Mem) (now : Timeval) (ofph : Mem) (s : ReadState) :
    Credits role now ofph s ↔ counted s.fs ofph := by
  unfold Credits
  rw [ofp13HandleMessage_count, ofp13HandleMessage_probeState]
  by_cases h : counted s.fs ofph
  · simp [h]
  · simp [h]

/-! ## When the two agree -/

/-- The ethertype the handler finds: 28 bytes into the message and the low half of `in_port`
on, or 56 bytes further if that is a VLAN tag. -/
def FindsLldp (ofph : Mem) : Prop :=
  ofph.be16 (28 + ofph.be16 14) = ETHERTYPE_LLDP ∨
    ofph.be16 (28 + ofph.be16 14) = ETHERTYPE_VLAN ∧
      ofph.be16 (84 + ofph.be16 14) = ETHERTYPE_LLDP

/-- The bytes the handler looks at in the place of the ethertype or the command say the same
as the right ones. -/
def Agrees (m : List UInt8) (ofph : Mem) : Prop :=
  match Ofp131Type.ofByte (Mem.ofList m 1) with
  | some .packetOut => FindsLldp ofph ↔ frameEthertype m = some ETHERTYPE_LLDP
  | some .flowMod => ofph 56 = 0 ∧ (ofph 57 = 0 ∨ ofph 57 = 2) ↔
      flowModCommand m = OFPFC_ADD ∨ flowModCommand m = OFPFC_MODIFY_STRICT
  | _ => True

/-- In READY_TO_SEND, a message is counted when it is a response and only then, exactly if
the bytes looked at agree with the right ones. -/
theorem credits_iff_isResponse_iff (role : Mem) (now : Timeval) (ofph : Mem) (s : ReadState)
    (m : List UInt8) (hready : s.fs.switchStatus = .readyToSend) (hm : WellFormedResponse m)
    (hofph : ofph.read 0 m.length = m) :
    (Credits role now ofph s ↔ IsResponse m) ↔ Agrees m ofph := by
  have htype := hm.wellFormed.type_eq hofph
  rw [credits_iff_counted]
  unfold IsResponse Agrees
  rcases hm.body_le with ⟨ht, -⟩ | ⟨ht, -⟩
  -- a PACKET_OUT counts unless it is taken for LLDP
  · have hfinds : packetOutIsLldp ofph = true ↔ FindsLldp ofph := by
      rw [packetOutIsLldp_iff, show 28 + ofph.be16 14 + 56 = 84 + ofph.be16 14 by omega]
      rfl
    rw [counted_iff_of_packetOut hready (by rw [htype, ht]), ht, ← Bool.not_eq_true, hfinds]
    exact not_iff_not
  -- a FLOW_MOD counts by the bytes at offset 56
  · rw [counted_iff_of_flowMod hready (by rw [htype, ht]), commandCounts_iff, ht]

/-- A FLOW_MOD that adds a flow for IPv4 packets. -/
def addIpv4Flow : List UInt8 :=
  [4, 14, 0, 64, 0, 0, 0, 1, 0, 0, 0, 0, 0, 0, 0, 0, 0, 0, 0, 0, 0, 0, 0, 0,
   0, 0, 0, 0, 0, 0, 0, 1, 255, 255, 255, 255, 255, 255, 255, 255, 255, 255, 255, 255,
   0, 0, 0, 0, 0, 1, 0, 10, 128, 0, 10, 2, 8, 0, 0, 0, 0, 0, 0, 0]

theorem credits_iff_isResponse_iff_addIpv4Flow :
    (Credits (fun _ => 0) ⟨0, 0⟩ (Mem.ofList addIpv4Flow) readySwitch ↔ IsResponse addIpv4Flow)
      ↔ Agrees addIpv4Flow (Mem.ofList addIpv4Flow) :=
  credits_iff_isResponse_iff _ _ _ _ addIpv4Flow rfl
    ⟨by decide, rfl, .inr ⟨rfl, by decide⟩⟩ (Mem.read_ofList addIpv4Flow)

/-- It is a response, but the ethertype of its match is taken for the command. -/
theorem not_credits_addIpv4Flow :
    WellFormedResponse addIpv4Flow ∧ readySwitch.fs.switchStatus = .readyToSend ∧
      IsResponse addIpv4Flow ∧
      ¬ Credits (fun _ => 0) ⟨0, 0⟩ (Mem.ofList addIpv4Flow) readySwitch :=
  ⟨⟨by decide, rfl, .inr ⟨rfl, by decide⟩⟩, rfl, .inl rfl, by decide⟩

end OfcBenchmark
