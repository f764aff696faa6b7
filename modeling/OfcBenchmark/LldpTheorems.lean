import OfcBenchmark.LocalityTheorems

/-!
# LLDP in tagged frames

`packetOutIsLldp` looks for the ethertype of the frame behind the actions. Behind a VLAN tag it
looks 56 bytes further on, while the tag has 4: the `4` is added to a pointer to a structure of
14 bytes. So it is right about all frames without a tag, and about those with one by
coincidence (`recognizesLldp_iff`).
-/

namespace OfcBenchmark
open ByteMemory

/-! ## Messages -/

/-- A PACKET_OUT: `struct ofp_packet_out`, its actions and the frame, which has space for its
Ethernet header and for the tag if there is one. -/
structure OfpPacketOut where
  header : OfpHeader
  buffer_id : ℕ
  in_port : ℕ
  actions : List UInt8
  data : List UInt8
  actions_lt : actions.length < 65536
  header_le : 14 ≤ data.length
  tag_le : (Mem.ofList data).be16 12 = ETHERTYPE_VLAN → 18 ≤ data.length

namespace OfpPacketOut

/-- What stands in front of the actions. -/
def headerBytes (po : OfpPacketOut) : List UInt8 :=
  po.header.bytes ++ le32 po.buffer_id ++ le16 po.in_port ++ le16 (htons po.actions.length)

/-- The message as it lies in memory. -/
def bytes (po : OfpPacketOut) : List UInt8 := po.headerBytes ++ po.actions ++ po.data

/-- The ethertype of the frame, that behind the tag, and what is found 56 bytes behind the
first one. -/
def ethertype (po : OfpPacketOut) : ℕ := (Mem.ofList po.data).be16 12

def innerEthertype (po : OfpPacketOut) : ℕ := (Mem.ofList po.data).be16 16

def farBytes (po : OfpPacketOut) : ℕ := (Mem.ofList po.data).be16 68

/-- The frame is LLDP, with a tag or without. -/
def IsLldp (po : OfpPacketOut) : Prop :=
  po.ethertype = ETHERTYPE_LLDP ∨
    po.ethertype = ETHERTYPE_VLAN ∧ po.innerEthertype = ETHERTYPE_LLDP

variable (po : OfpPacketOut)

theorem length_headerBytes : po.headerBytes.length = 16 := rfl

theorem length_bytes : po.bytes.length = 16 + po.actions.length + po.data.length := by
  rw [bytes, List.length_append, List.length_append, length_headerBytes]

/-- The field that says how long the actions are. -/
theorem be16_actions_len : (Mem.ofList po.bytes).be16 14 = po.actions.length := by
  have hread : (Mem.ofList po.bytes).read 14 2 = le16 (htons po.actions.length) := rfl
  rw [Mem.be16_of_read hread]
  exact htons_htons po.actions_lt

/-- The fields of the frame. -/
theorem be16_data (p : ℕ) :
    (Mem.ofList po.bytes).be16 (16 + po.actions.length + p) = (Mem.ofList po.data).be16 p := by
  have hlength : (po.headerBytes ++ po.actions).length = 16 + po.actions.length := by
    rw [List.length_append, length_headerBytes]
  apply Mem.be16_congr
  · rw [bytes, ← hlength, Mem.ofList_append_right]
  · rw [bytes, ← hlength, Nat.add_assoc, Mem.ofList_append_right]

/-! ## The test -/

/-- Whatever follows the message in memory, `packetOutIsLldp` returns 1 for an LLDP frame and
for no other. -/
def RecognizesLldp : Prop :=
  ∀ m : Mem, m.read 0 po.bytes.length = po.bytes → (packetOutIsLldp m = true ↔ po.IsLldp)

/-- Enough of the frame is there to say what `packetOutIsLldp` finds behind a tag. -/
def FarBytesThere : Prop :=
  70 ≤ po.data.length ∨ po.data.length = 69 ∧ Mem.ofList po.data 68 ≠ 0x88

/-- With zeros behind the message the test sees the frame alone. -/
theorem packetOutIsLldp_bytes :
    packetOutIsLldp (Mem.ofList po.bytes) = true ↔
      po.ethertype = ETHERTYPE_LLDP ∨
        po.ethertype = ETHERTYPE_VLAN ∧ po.farBytes = ETHERTYPE_LLDP := by
  have hnear := po.be16_data 12
  have hfar := po.be16_data 68
  rw [packetOutIsLldp_iff, po.be16_actions_len,
    show 28 + po.actions.length = 16 + po.actions.length + 12 by omega, hnear,
    show 16 + po.actions.length + 12 + 56 = 16 + po.actions.length + 68 by omega, hfar]
  rfl

/-- The test looks behind the message exactly if there is a tag and the frame ends too early. -/
theorem packetOutLeaks_iff :
    PacketOutLeaks po.bytes ↔ po.ethertype = ETHERTYPE_VLAN ∧ ¬ po.FarBytesThere := by
  have hheader := po.header_le
  have hfar : Mem.ofList po.bytes (16 + po.actions.length + 68) = Mem.ofList po.data 68 := by
    have hlength : (po.headerBytes ++ po.actions).length = 16 + po.actions.length := by
      rw [List.length_append, length_headerBytes]
    rw [bytes, ← hlength, Mem.ofList_append_right]
  have hnear := po.be16_data 12
  unfold PacketOutLeaks FarBytesThere ethertype
  dsimp only
  rw [po.be16_actions_len, po.length_bytes,
    show 28 + po.actions.length = 16 + po.actions.length + 12 by omega, hnear,
    show 16 + po.actions.length + 12 + 56 = 16 + po.actions.length + 68 by omega, hfar]
  constructor
  · rintro (hle | ⟨hlen, -⟩ | ⟨-, hvlan, hshort⟩)
    · omega
    · omega
    -- a tag, and the second type is behind the end
    · refine ⟨hvlan, ?_⟩
      rintro (hlong | ⟨hlong, hne⟩)
      · omega
      · rcases hshort with hshort | ⟨-, heq⟩
        · omega
        · exact hne heq
  · rintro ⟨hvlan, hshort⟩
    obtain ⟨hlong, hlast⟩ := not_or.mp hshort
    refine .inr (.inr ⟨by omega, hvlan, ?_⟩)
    by_cases hlen : po.data.length = 69
    · exact .inr ⟨by omega, not_not.mp fun hne => hlast ⟨hlen, hne⟩⟩
    · exact .inl (by omega)

end OfpPacketOut

/-- LLDP is recognized exactly in the messages whose frame has no tag, or in which bytes 68 and
69 of the frame say the same as bytes 16 and 17. -/
theorem recognizesLldp_iff (po : OfpPacketOut) :
    po.RecognizesLldp ↔ po.ethertype ≠ ETHERTYPE_VLAN ∨
      po.FarBytesThere ∧ (po.farBytes = ETHERTYPE_LLDP ↔ po.innerEthertype = ETHERTYPE_LLDP) := by
  have hself := Mem.read_ofList po.bytes
  have hbytes := po.packetOutIsLldp_bytes
  constructor
  · intro h
    by_cases hvlan : po.ethertype = ETHERTYPE_VLAN
    -- an answer that does not depend on the memory behind the message needs the far bytes
    · have hconst : Mem.ConstOn po.bytes packetOutIsLldp := by
        intro m m' hm hm'
        rw [Bool.eq_iff_iff, h m hm, h m' hm']
      have hthere : po.FarBytesThere := by
        by_contra hshort
        exact (constOn_packetOutIsLldp_iff _).mp hconst (po.packetOutLeaks_iff.mpr ⟨hvlan, hshort⟩)
      refine .inr ⟨hthere, ?_⟩
      have hiff := hbytes.symm.trans (h _ hself)
      unfold OfpPacketOut.IsLldp at hiff
      have hne : ¬ po.ethertype = ETHERTYPE_LLDP := by
        rw [hvlan]
        decide
      rwa [or_iff_right hne, or_iff_right hne, and_iff_right hvlan, and_iff_right hvlan] at hiff
    · exact .inl hvlan
  · intro h m hm
    -- so the memory behind the message can be taken to be zero
    have hkept : ¬ PacketOutLeaks po.bytes := by
      rw [po.packetOutLeaks_iff]
      rintro ⟨hvlan, hshort⟩
      rcases h with h | ⟨hthere, -⟩
      · exact h hvlan
      · exact hshort hthere
    rw [constOn_packetOutIsLldp hkept m _ hm hself, hbytes]
    apply or_congr_right
    apply and_congr_right
    intro hvlan
    rcases h with h | ⟨-, hiff⟩
    · exact absurd hvlan h
    · exact hiff

/-- An LLDP frame with a VLAN tag. -/
def taggedLldp : OfpPacketOut where
  header := { version := OFP131_VERSION, type := Ofp131Type.packetOut.toByte
              length := htons 86, xid := 0 }
  buffer_id := 0xffffffff
  in_port := 0xffff
  actions := []
  data := List.replicate 12 0 ++ [0x81, 0x00, 0x00, 0x01, 0x88, 0xcc] ++ List.replicate 52 0
  actions_lt := by decide
  header_le := by decide
  tag_le := fun _ => by decide

/-- It is taken for the response to a probe. -/
theorem not_recognizesLldp_taggedLldp : taggedLldp.IsLldp ∧ ¬ taggedLldp.RecognizesLldp := by
  have hlldp : taggedLldp.IsLldp := .inr ⟨by decide, by decide⟩
  refine ⟨hlldp, fun h => ?_⟩
  have hfalse : packetOutIsLldp (Mem.ofList taggedLldp.bytes) = false := by decide
  have htrue := (h _ (Mem.read_ofList _)).mpr hlldp
  rw [hfalse] at htrue
  cases htrue

end OfcBenchmark
