import OfcBenchmark.StreamTheorems

/-!
# Requests and their replies

What handling a message pushes to `outbuf`: nothing, or one reply of the type its request
asks for, with the xid of the request (`ofp13HandleMessage_outbuf`, `replyBytes_eq`). All
replies but one are built with a header of their own. The reply to GET_CONFIG_REQUEST sends
the stored configuration with the header it was stored with, so it is well-formed exactly
when that header is (`isReply_iff`).
-/

namespace OfcBenchmark
open ByteMemory Framing

/-! ## What the protocol wants -/

/-- The reply to a request; `mp_type` is the type of a MULTIPART_REQUEST. -/
def Ofp131Type.reply (mp_type : ℕ) : Ofp131Type → Option Ofp131Type
  | .echoRequest => some .echoReply
  | .featuresRequest => some .featuresReply
  | .getConfigRequest => some .getConfigReply
  | .barrierRequest => some .barrierReply
  | .roleRequest => some .roleReply
  | .multipartRequest =>
    if mp_type = OFPMP_GROUP_FEATURES ∨ mp_type = OFPMP_METER_FEATURES then none
    else some .multipartReply
  | _ => none

/-- The request a reply answers. -/
def Ofp131Type.request : Ofp131Type → Ofp131Type
  | .echoReply => .echoRequest
  | .featuresReply => .featuresRequest
  | .getConfigReply => .getConfigRequest
  | .barrierReply => .barrierRequest
  | .roleReply => .roleRequest
  | .multipartReply => .multipartRequest
  | t => t

theorem Ofp131Type.request_of_reply {mp_type : ℕ} {t r : Ofp131Type}
    (h : t.reply mp_type = some r) : r.request = t := by
  unfold reply at h
  split at h
  case h_6 =>
    split at h
    · cases h
    · cases h
      rfl
  case h_7 => cases h
  all_goals
    cases h
    rfl

/-- The type of the reply the message at `ofph` asks for. -/
def replyType (ofph : Mem) : Option Ofp131Type :=
  (Ofp131Type.ofByte (ofph 1)).bind (Ofp131Type.reply (ofph.be16 8))

/-- The number of bytes of a reply. -/
def Ofp131Type.replySize (mp_type : ℕ) : Ofp131Type → ℕ
  | .featuresReply => 32
  | .getConfigReply => 12
  | .roleReply => 24
  | .multipartReply =>
    if mp_type = OFPMP_PORT_DESC then 272
    else if mp_type = OFPMP_DESC then 1072
    else if mp_type = OFPMP_TABLE_FEATURES then 88
    else 16
  | _ => 8

theorem Ofp131Type.replySize_lt (mp_type : ℕ) (t : Ofp131Type) : t.replySize mp_type < 65536 := by
  unfold replySize
  split
  case h_4 => split_ifs <;> omega
  all_goals omega

/-- A reply tells what message asked for it. -/
theorem ofByte_of_replyType {ofph : Mem} {t : Ofp131Type} (h : replyType ofph = some t) :
    Ofp131Type.ofByte (ofph 1) = some t.request := by
  obtain ⟨req, hreq, ht⟩ := Option.bind_eq_some_iff.mp h
  rw [hreq, Ofp131Type.request_of_reply ht]

/-! ## What is pushed -/

/-- The bytes handling a message pushes to `outbuf`. -/
def replyBytes (role ofph : Mem) (s : ReadState) : List UInt8 :=
  match Ofp131Type.ofByte (ofph 1) with
  | some .getConfigRequest => (makeConfigReply s.config (ofph.load32 4) s.buf).1.bytes
  | some .barrierRequest => (replyHeader Ofp131Type.barrierReply.toByte (ofph.load32 4)).bytes
  | some .featuresRequest =>
    (ofp13MakeFeaturesReply s.fs.id (ofph.load32 4) s.buf).1.read 0 32
  | some .echoRequest => (replyHeader OFPT_ECHO_REPLY (ofph.load32 4)).bytes
  | some .multipartRequest =>
    if htons (ofph.load16 8) = OFPMP_GROUP_FEATURES ∨
        htons (ofph.load16 8) = OFPMP_METER_FEATURES then []
    else
      let r := ofp13MakeMultipartReply (htons (ofph.load16 8)) (ofph.load32 4) s.buf
      r.1.read 0 r.2
  | some .roleRequest => roleReply (ofph.load32 4) role
  | _ => []

section Outbuf

variable (role : Mem) (now : Timeval) (ofph : Mem) (s : ReadState)

/-- The configuration reply is the stored structure. -/
theorem read_makeConfigReply (config : OfpSwitchConfig) (xid : ℕ) (buf : Mem) :
    (makeConfigReply config xid buf).2.1.read 0 (makeConfigReply config xid buf).2.2
      = (makeConfigReply config xid buf).1.bytes :=
  Mem.read_write_self buf 0 _

/-- A message without a reply pushes an empty one. -/
theorem ofp13Dispatch_outbuf_eq :
    (ofp13Dispatch role now ofph s).fs.outbuf
      = msgbufPush s.fs.outbuf (replyBytes role ofph s) := by
  unfold ofp13Dispatch replyBytes
  rcases Ofp131Type.ofByte (ofph 1) with - | t
  · exact (msgbufPush_nil _).symm
  cases t
  case packetOut =>
    dsimp only
    split <;> exact (msgbufPush_nil _).symm
  case flowMod =>
    dsimp only
    split <;> exact (msgbufPush_nil _).symm
  case getConfigRequest =>
    dsimp only
    rw [← read_makeConfigReply]
    unfold Fakeswitch.restartProbe
    split <;> rfl
  case featuresRequest =>
    -- the status change after the push leaves `outbuf` alone
    obtain ⟨_, _, _, _, _, h⟩ := switchChangeStatus_frame now
      (s.fs.push ((ofp13MakeFeaturesReply s.fs.id (ofph.load32 4) s.buf).1.read 0 32))
      .sendPortDesc
    show (switchChangeStatus now (s.fs.push _) .sendPortDesc).outbuf = _
    exact congrArg Fakeswitch.outbuf h
  case multipartRequest =>
    -- PORT_DESC is neither of the two types that are ignored
    dsimp only
    by_cases hport : htons (ofph.load16 8) = OFPMP_PORT_DESC
    · rw [if_pos hport, if_neg (by rw [hport]; decide)]
      rfl
    · rw [if_neg hport]
      split
      · exact (msgbufPush_nil _).symm
      · rfl
  case barrierRequest => rfl
  case echoRequest => rfl
  case roleRequest => rfl
  all_goals exact (msgbufPush_nil _).symm

theorem ofp13HandleMessage_outbuf_eq :
    (ofp13HandleMessage role now ofph s).fs.outbuf
      = msgbufPush s.fs.outbuf (replyBytes role ofph s) := by
  show (ofp13Dispatch role now ofph s).fs.clamp.outbuf = _
  rw [clamp_outbuf, ofp13Dispatch_outbuf_eq]

theorem ofp13HandleMessage_outbuf :
    (ofp13HandleMessage role now ofph s).fs.outbuf.contents
      = s.fs.outbuf.contents ++ replyBytes role ofph s := by
  rw [ofp13HandleMessage_outbuf_eq, contents_msgbufPush]

/-- What a message does to the stored configuration. -/
theorem ofp13HandleMessage_config :
    (ofp13HandleMessage role now ofph s).config
      = match Ofp131Type.ofByte (ofph 1) with
        | some .getConfigRequest => (makeConfigReply s.config (ofph.load32 4) s.buf).1
        | some .setConfig => parseSetConfig ofph
        | _ => s.config := by
  show (ofp13Dispatch role now ofph s).config = _
  unfold ofp13Dispatch
  rcases Ofp131Type.ofByte (ofph 1) with - | t
  · rfl
  cases t
  case packetOut =>
    dsimp only
    split <;> rfl
  case flowMod =>
    dsimp only
    split <;> rfl
  case multipartRequest =>
    dsimp only
    split
    · rfl
    · split <;> rfl
  all_goals rfl

end Outbuf

/-! ## The header of a reply -/

/-- The header a reply of type `t` and `n` bytes is sent with. -/
def OfpHeader.ofReply (config : OfpSwitchConfig) (t : Ofp131Type) (n xid : ℕ) : OfpHeader :=
  match t with
  | .getConfigReply => { config.header with type := t.toByte, xid := xid }
  | t => { version := OFP131_VERSION, type := t.toByte, length := htons n, xid := xid }

theorem read_ofp13MakeMultipartReply (mp_type xid : ℕ) (buf : Mem) :
    (ofp13MakeMultipartReply mp_type xid buf).1.read 0 8
      = OfpHeader.bytes { version := OFP131_VERSION, type := Ofp131Type.multipartReply.toByte,
                          length := htons (ofp13MakeMultipartReply mp_type xid buf).2
                          xid := xid } := by
  unfold ofp13MakeMultipartReply
  dsimp only
  split_ifs <;> rfl

theorem ofp13MakeMultipartReply_size (mp_type xid : ℕ) (buf : Mem) :
    (ofp13MakeMultipartReply mp_type xid buf).2
      = Ofp131Type.multipartReply.replySize mp_type := by
  unfold ofp13MakeMultipartReply Ofp131Type.replySize
  dsimp only
  split_ifs <;> rfl

/-- A block of a buffer starts with its first eight bytes. -/
theorem read_eq_append (m : Mem) {n : ℕ} (h : 8 ≤ n) :
    m.read 0 n = m.read 0 8 ++ m.read 8 (n - 8) := by
  have hn : n = 8 + (n - 8) := by omega
  conv_lhs => rw [hn]
  exact Mem.read_add m 0 8 (n - 8)

/-- A message without a reply pushes nothing, a request pushes one reply: the header above
and what belongs behind it. -/
theorem replyBytes_eq (role ofph : Mem) (s : ReadState) :
    match replyType ofph with
    | none => replyBytes role ofph s = []
    | some t => (replyBytes role ofph s).length = t.replySize (ofph.be16 8) ∧
        ∃ body, replyBytes role ofph s
          = (OfpHeader.ofReply s.config t (t.replySize (ofph.be16 8)) (ofph.load32 4)).bytes
            ++ body := by
  unfold replyType replyBytes
  rcases Ofp131Type.ofByte (ofph 1) with - | t
  · rfl
  cases t
  -- the stored header, with type and xid set
  case getConfigRequest => exact ⟨rfl, _, List.append_assoc _ _ _⟩
  case barrierRequest => exact ⟨rfl, [], rfl⟩
  case echoRequest => exact ⟨rfl, [], rfl⟩
  case roleRequest =>
    exact ⟨rfl, le32 (htonl OFPCR_ROLE_MASTER) ++ role.read 12 4 ++ le64 0, rfl⟩
  case featuresRequest => exact ⟨Mem.length_read _ _ _, _, read_eq_append _ (by decide)⟩
  case multipartRequest =>
    dsimp only [Option.bind, Ofp131Type.reply]
    rw [htons, Mem.bswap16_load16]
    by_cases hign : ofph.be16 8 = OFPMP_GROUP_FEATURES ∨ ofph.be16 8 = OFPMP_METER_FEATURES
    · rw [if_pos hign, if_pos hign]
    · rw [if_neg hign, if_neg hign]
      have hsize := ofp13MakeMultipartReply_size (ofph.be16 8) (ofph.load32 4) s.buf
      have hle : 8 ≤ Ofp131Type.multipartReply.replySize (ofph.be16 8) := by
        unfold Ofp131Type.replySize
        dsimp only
        split_ifs <;> omega
      dsimp only
      rw [hsize]
      have hheader := read_ofp13MakeMultipartReply (ofph.be16 8) (ofph.load32 4) s.buf
      rw [hsize] at hheader
      exact ⟨Mem.length_read _ _ _, _,
        (read_eq_append _ hle).trans (congrArg (· ++ _) hheader)⟩
  all_goals rfl

/-! ## Well-formed replies -/

/-- `bs` is one reply of type `t` to the message `m`. -/
structure IsReply (m : List UInt8) (t : Ofp131Type) (bs : List UInt8) : Prop where
  wellFormed : WellFormed bs
  version_eq : Mem.ofList bs 0 = OFP131_VERSION
  type_eq : Mem.ofList bs 1 = t.toByte
  xid_eq : (Mem.ofList bs).read 4 4 = (Mem.ofList m).read 4 4

/-- What handling a message should have pushed. -/
def Answered (h : Handled) : Prop :=
  match replyType (Mem.ofList h.message) with
  | none => h.pushed = []
  | some t => IsReply h.message t h.pushed

/-- The length of the fixed part of a message. -/
def Ofp131Type.size : Ofp131Type → ℕ
  | .setConfig => 12
  | .multipartRequest => 16
  | .roleRequest => 24
  | _ => 8

/-- A complete OpenFlow 1.3 message with all of its fixed part. -/
structure FullSize (m : List UInt8) : Prop where
  wellFormed : WellFormed m
  version_eq : Mem.ofList m 0 = OFP131_VERSION
  size_le : ∀ t ∈ Ofp131Type.ofByte (Mem.ofList m 1), t.size ≤ m.length

instance (m : List UInt8) : Decidable (FullSize m) :=
  decidable_of_iff
    (WellFormed m ∧ Mem.ofList m 0 = OFP131_VERSION ∧
      ∀ t ∈ Ofp131Type.ofByte (Mem.ofList m 1), t.size ≤ m.length)
    ⟨fun h => ⟨h.1, h.2.1, h.2.2⟩, fun h => ⟨h.wellFormed, h.version_eq, h.size_le⟩⟩

/-- The stored configuration can be sent as it is. -/
def OfpSwitchConfig.Sendable (config : OfpSwitchConfig) : Prop :=
  config.header.version = OFP131_VERSION ∧ htons config.header.length = OfpSwitchConfig.size

/-- The fields of a header in front of a message. -/
theorem be16_header_append (h : OfpHeader) (body : List UInt8) :
    (Mem.ofList (h.bytes ++ body)).be16 2 = htons h.length := by
  show 256 * (UInt8.ofNat h.length).toNat + (UInt8.ofNat (h.length / 256)).toNat = _
  rw [UInt8.toNat_ofNat', UInt8.toNat_ofNat', htons, bswap16]

/-- A reply is well-formed when version and length of its header are. -/
theorem isReply_header_iff {m bs body : List UInt8} {t : Ofp131Type} {h : OfpHeader}
    (hbs : bs = h.bytes ++ body) (ht : h.type = t.toByte)
    (hxid : le32 h.xid = (Mem.ofList m).read 4 4) :
    IsReply m t bs ↔ h.version = OFP131_VERSION ∧ htons h.length = bs.length := by
  have hlen : 8 ≤ bs.length := by
    rw [hbs, List.length_append, OfpHeader.length_bytes]
    omega
  have hbe : (Mem.ofList bs).be16 2 = htons h.length := by rw [hbs, be16_header_append]
  constructor
  · intro hr
    constructor
    · rw [← hr.version_eq, hbs]
      rfl
    · rw [← hbe, hr.wellFormed.length_eq]
  · rintro ⟨hv, hl⟩
    refine ⟨⟨hlen, by rw [hbe, hl]⟩, ?_, ?_, ?_⟩
    · rw [hbs]
      exact hv
    · rw [hbs]
      exact ht
    · rw [hbs, ← hxid]
      rfl

section Message

variable {role ofph : Mem} {length : ℕ}

/-- What the header of a complete message says does not depend on what follows it. -/
theorem ofList_read_zero {i : ℕ} (hi : i < length) :
    Mem.ofList (ofph.read 0 length) i = ofph i := by
  rw [Mem.ofList_read ofph 0 hi, Nat.zero_add]

/-- A MULTIPART_REQUEST has its type in it. -/
theorem FullSize.mp_type_eq (h : FullSize (ofph.read 0 length))
    (ht : Ofp131Type.ofByte (ofph 1) = some .multipartRequest) :
    (Mem.ofList (ofph.read 0 length)).be16 8 = ofph.be16 8 := by
  have hlen := h.wellFormed.header_le
  have hsize := h.size_le
  rw [Mem.length_read] at hlen hsize
  rw [ofList_read_zero (show 1 < length by omega), ht] at hsize
  have h16 : 16 ≤ length := hsize _ (Option.mem_some_iff.mpr rfl)
  exact Mem.be16_congr (ofList_read_zero (by omega)) (ofList_read_zero (by omega))

theorem FullSize.replyType_eq (h : FullSize (ofph.read 0 length)) :
    replyType (Mem.ofList (ofph.read 0 length)) = replyType ofph := by
  have hlen := h.wellFormed.header_le
  rw [Mem.length_read] at hlen
  unfold replyType
  rw [ofList_read_zero (show 1 < length by omega)]
  by_cases ht : Ofp131Type.ofByte (ofph 1) = some .multipartRequest
  · rw [h.mp_type_eq ht]
  -- no other message has a type of its own
  · rcases hofph : Ofp131Type.ofByte (ofph 1) with - | t
    · rfl
    cases t
    case multipartRequest => exact absurd hofph ht
    all_goals rfl

/-- So has its reply, whose size depends on it. -/
theorem FullSize.replySize_eq (h : FullSize (ofph.read 0 length)) {t : Ofp131Type}
    (ht : replyType ofph = some t) :
    t.replySize ((Mem.ofList (ofph.read 0 length)).be16 8) = t.replySize (ofph.be16 8) := by
  have hreq := ofByte_of_replyType ht
  by_cases hmp : t = .multipartReply
  · rw [h.mp_type_eq (by rw [hreq, hmp]; rfl)]
  · unfold Ofp131Type.replySize
    cases t
    case multipartReply => exact absurd rfl hmp
    all_goals rfl

theorem FullSize.xid_eq (h : FullSize (ofph.read 0 length)) :
    le32 (ofph.load32 4) = (Mem.ofList (ofph.read 0 length)).read 4 4 := by
  have hlen := h.wellFormed.header_le
  rw [Mem.length_read] at hlen
  rw [Mem.le32_load32]
  exact Mem.read_congr fun i hi => (ofList_read_zero (by omega)).symm

/-- Only a GET_CONFIG_REQUEST asks for the configuration. -/
theorem replyType_eq_getConfigReply {t : Ofp131Type} (h : replyType ofph = some t) :
    t = .getConfigReply ↔ Ofp131Type.ofByte (ofph 1) = some .getConfigRequest := by
  constructor
  · rintro rfl
    exact ofByte_of_replyType h
  · intro hreq
    rw [replyType, hreq] at h
    cases h
    rfl

/-- Every reply is well-formed, but for the reply to GET_CONFIG_REQUEST that is a matter of
the stored configuration. -/
theorem answered_iff (role : Mem) (s : ReadState) (h : FullSize (ofph.read 0 length)) :
    Answered ⟨ofph.read 0 length, replyBytes role ofph s⟩ ↔
      (Ofp131Type.ofByte (ofph 1) = some .getConfigRequest → s.config.Sendable) := by
  have hreply := replyBytes_eq role ofph s
  show (match replyType (Mem.ofList (ofph.read 0 length)) with
    | none => replyBytes role ofph s = []
    | some t => IsReply (ofph.read 0 length) t (replyBytes role ofph s)) ↔ _
  rw [h.replyType_eq]
  rcases hr : replyType ofph with - | t
  · rw [hr] at hreply
    apply iff_of_true hreply
    intro ht
    rw [replyType, ht] at hr
    cases hr
  rw [hr] at hreply
  obtain ⟨hsize, body, hbody⟩ := hreply
  have hconfig : t = .getConfigReply
      ↔ Ofp131Type.ofByte (ofph 1) = some .getConfigRequest := replyType_eq_getConfigReply hr
  rw [← hconfig]
  by_cases hcfg : t = .getConfigReply
  -- sent with the stored header, so version and length are those of the stored header
  · subst hcfg
    have hiff := isReply_header_iff (t := .getConfigReply) hbody rfl h.xid_eq
    rw [hsize] at hiff
    exact hiff.trans ⟨fun hs _ => hs, fun hs => hs rfl⟩
  · -- built with a header of its own
    have hheader : OfpHeader.ofReply s.config t (t.replySize (ofph.be16 8)) (ofph.load32 4)
        = { version := OFP131_VERSION, type := t.toByte,
            length := htons (t.replySize (ofph.be16 8)), xid := ofph.load32 4 } := by
      unfold OfpHeader.ofReply
      split
      · exact absurd rfl hcfg
      · rfl
    rw [hheader] at hbody
    refine iff_of_true ((isReply_header_iff hbody rfl h.xid_eq).mpr ⟨rfl, ?_⟩) fun ht =>
      absurd ht hcfg
    rw [hsize]
    exact htons_htons (t.replySize_lt _)

end Message

/-! ## The stored configuration -/

/-- A SET_CONFIG is stored with its header, so from then on the configuration can be sent
when that header says 12 bytes. -/
def configStep (sendable : Prop) (m : List UInt8) : Prop :=
  if Ofp131Type.ofByte (Mem.ofList m 1) = some .setConfig then m.length = OfpSwitchConfig.size
  else sendable

/-- Every GET_CONFIG_REQUEST finds a configuration that can be sent. -/
def ConfigKnown : Prop → List (List UInt8) → Prop
  | _, [] => True
  | sendable, m :: ms =>
    (Ofp131Type.ofByte (Mem.ofList m 1) = some .getConfigRequest → sendable) ∧
      ConfigKnown (configStep sendable m) ms

theorem configKnown_append (sendable : Prop) (ms ms' : List (List UInt8)) :
    ConfigKnown sendable (ms ++ ms')
      ↔ ConfigKnown sendable ms ∧ ConfigKnown (ms.foldl configStep sendable) ms' := by
  induction ms generalizing sendable with
  | nil => exact (iff_of_eq (true_and _)).symm
  | cons m ms ih =>
    rw [List.cons_append, ConfigKnown, ConfigKnown, ih, and_assoc, List.foldl_cons]

/-- What a message does to the stored configuration, as far as that is sent. -/
theorem sendable_ofp13HandleMessage_iff {role ofph : Mem} {length : ℕ} (now : Timeval)
    (s : ReadState) (h : FullSize (ofph.read 0 length)) :
    (ofp13HandleMessage role now ofph s).config.Sendable
      ↔ configStep s.config.Sendable (ofph.read 0 length) := by
  have hlen := h.wellFormed.header_le
  rw [Mem.length_read] at hlen
  have hbyte : ∀ i < 8, Mem.ofList (ofph.read 0 length) i = ofph i :=
    fun i hi => ofList_read_zero (by omega)
  rw [ofp13HandleMessage_config, configStep, hbyte 1 (by omega)]
  split
  case h_1 ht =>
    rw [ht, if_neg nofun]
    exact Iff.rfl
  case h_2 ht =>
    -- the header of the message becomes the header of the stored structure
    rw [ht, if_pos rfl]
    have hversion : ofph 0 = OFP131_VERSION := by rw [← hbyte 0 (by omega), h.version_eq]
    have hlength : htons (ofph.load16 2) = (ofph.read 0 length).length := by
      rw [htons, Mem.bswap16_load16, ← h.wellFormed.length_eq]
      exact Mem.be16_congr (hbyte 2 (by omega)).symm (hbyte 3 (by omega)).symm
    rw [← hlength]
    exact and_iff_right hversion
  case h_3 _ hset => rw [if_neg hset]

/-! ## Runs -/

/-- Handling these messages leads from one stored configuration to the other, and all of
them are answered as they should be if the configuration is known when it is asked for. -/
structure RepliesLaw (config config' : OfpSwitchConfig) (handled : List Handled) : Prop where
  answered_iff : (∀ h ∈ handled, Answered h)
    ↔ ConfigKnown config.Sendable (handled.map Handled.message)
  sendable_iff : config'.Sendable
    ↔ (handled.map Handled.message).foldl configStep config.Sendable

theorem RepliesLaw.nil (config : OfpSwitchConfig) : RepliesLaw config config [] :=
  ⟨iff_of_true (fun _ h => absurd h List.not_mem_nil) trivial, Iff.rfl⟩

theorem RepliesLaw.append {config₁ config₂ config₃ : OfpSwitchConfig}
    {handled handled' : List Handled} (h : RepliesLaw config₁ config₂ handled)
    (h' : RepliesLaw config₂ config₃ handled') :
    RepliesLaw config₁ config₃ (handled ++ handled') := by
  constructor
  · rw [List.forall_mem_append, List.map_append, configKnown_append, ← propext h.sendable_iff,
      h.answered_iff, h'.answered_iff]
  · rw [List.map_append, List.foldl_append, ← propext h.sendable_iff]
    exact h'.sendable_iff

/-- What the loop records for a message is the reply. -/
theorem handled_pushed (role : Mem) (now : Timeval) (ofph : Mem) (length : ℕ) (s : ReadState) :
    (s.handled role now ofph length).pushed = replyBytes role ofph (s.pull length) := by
  unfold ReadState.handled ReadState.next
  dsimp only
  rw [ofp13HandleMessage_outbuf]
  exact List.drop_left

/-- Handling one message. -/
theorem repliesLaw_next (role : Mem) (now : Timeval) (ofph : Mem) (length : ℕ) (s : ReadState)
    (h : FullSize (s.handled role now ofph length).message) :
    RepliesLaw s.config (s.next role now ofph length).config
      [s.handled role now ofph length] := by
  have hiff := answered_iff role (s.pull length) h
  have htype : Mem.ofList (ofph.read 0 length) 1 = ofph 1 := by
    have hlen := FullSize.wellFormed h |>.header_le
    rw [ReadState.handled, Mem.length_read] at hlen
    exact ofList_read_zero (by omega)
  refine ⟨?_, sendable_ofp13HandleMessage_iff now (s.pull length) h⟩
  rw [← handled_pushed role now] at hiff
  rw [List.forall_mem_singleton]
  refine hiff.trans ?_
  rw [← htype]
  exact (and_iff_left trivial).symm

theorem messageLoop_repliesLaw {role : Mem} {fuel : ℕ} {now : ℕ → Timeval} {s s' : ReadState}
    {handled : List Handled} (h : messageLoop role fuel now s = some (s', handled))
    (hfull : ∀ h ∈ handled, FullSize h.message) : RepliesLaw s.config s'.config handled := by
  revert hfull
  refine messageLoop_rec
    (P := fun s s' handled =>
      (∀ h ∈ handled, FullSize h.message) → RepliesLaw s.config s'.config handled)
    (fun s _ => .nil s.config) ?_ h
  intro s now ofph length s' handled _ ih hfull
  have hhead := repliesLaw_next role now ofph length s (hfull _ List.mem_cons_self)
  exact hhead.append (ih fun h hh => hfull h (List.mem_cons_of_mem _ hh))

theorem ofp13SwitchHandleIo_repliesLaw {env : IoEnv} {config config' : OfpSwitchConfig}
    {fs fs' : Fakeswitch} {handled : List Handled}
    (h : ofp13SwitchHandleIo env config fs = .ok (config', fs', handled))
    (hfull : ∀ h ∈ handled, FullSize h.message) : RepliesLaw config config' handled := by
  obtain ⟨⟨config₁, fs₁, handled₁⟩, hread, heq⟩ := map_eq_ok_iff.mp h
  -- writing changes neither the configuration nor what was handled
  obtain ⟨rfl, rfl⟩ : config₁ = config' ∧ handled₁ = handled := by
    split at heq <;> cases heq <;> exact ⟨rfl, rfl⟩
  split at hread
  · obtain ⟨-, s, hloop, rfl, -⟩ := (ofp13SwitchHandleRead_eq_ok_iff env.read).mp hread
    exact messageLoop_repliesLaw hloop hfull
  · cases hread
    exact .nil _

/-- The messages handled in a run. -/
def handledOf (log : List Removed) : List Handled :=
  log.filterMap fun
    | .handled h => some h
    | .discarded _ => none

@[simp] theorem handledOf_append (log log' : List Removed) :
    handledOf (log ++ log') = handledOf log ++ handledOf log' := List.filterMap_append

@[simp] theorem handledOf_map_handled (handled : List Handled) :
    handledOf (handled.map .handled) = handled := by
  rw [handledOf, List.filterMap_map]
  exact List.filterMap_some

@[simp] theorem handledOf_map_discarded (blocks : List (List UInt8)) :
    handledOf (blocks.map .discarded) = [] := by
  rw [handledOf, List.filterMap_map]
  exact List.filterMap_eq_nil_iff.mpr fun _ _ => rfl

theorem runCall_repliesLaw {call : Call} {config config' : OfpSwitchConfig}
    {fs fs' : Fakeswitch} {log : List Removed}
    (h : runCall call config fs = .ok (config', fs', log))
    (hfull : ∀ h ∈ handledOf log, FullSize h.message) :
    RepliesLaw config config' (handledOf log) := by
  rcases call with env | ts
  · obtain ⟨⟨config₁, fs₁, handled⟩, hio, heq⟩ := map_eq_ok_iff.mp h
    cases heq
    rw [handledOf_map_handled] at hfull ⊢
    exact ofp13SwitchHandleIo_repliesLaw hio hfull
  · obtain ⟨r, -, heq⟩ := map_eq_ok_iff.mp h
    cases heq
    rw [handledOf_map_discarded]
    exact .nil config

theorem runCalls_repliesLaw {calls : List Call} {config config' : OfpSwitchConfig}
    {fs fs' : Fakeswitch} {log : List Removed}
    (h : runCalls calls config fs = .ok (config', fs', log))
    (hfull : ∀ h ∈ handledOf log, FullSize h.message) :
    RepliesLaw config config' (handledOf log) := by
  induction calls generalizing config fs log with
  | nil =>
    cases h
    exact .nil _
  | cons call calls ih =>
    obtain ⟨⟨config₁, fs₁, log₁⟩, hcall, hrest⟩ := bind_eq_ok_iff.mp h
    obtain ⟨⟨config₂, fs₂, log₂⟩, hcalls, heq⟩ := bind_eq_ok_iff.mp hrest
    cases heq
    rw [handledOf_append] at hfull ⊢
    have hfirst := runCall_repliesLaw hcall fun h hh => hfull h (List.mem_append_left _ hh)
    exact hfirst.append (ih hcalls fun h hh => hfull h (List.mem_append_right _ hh))

/-! ## The replies in `outbuf` -/

/-- The messages that ask for a reply. -/
def requests (handled : List Handled) : List Handled :=
  handled.filter fun h => (replyType (Mem.ofList h.message)).isSome

/-- Every request has pushed its reply and every other message nothing, and what was pushed
splits into these replies by the length fields of their headers. -/
structure Replies (handled : List Handled) : Prop where
  answered : ∀ h ∈ handled, Answered h
  split : deframe ofpSize ((handled.map Handled.pushed).flatten.length + 1)
    (handled.map Handled.pushed).flatten = some ((requests handled).map Handled.pushed, [])

/-- The splitting is a consequence: every reply is well-formed. -/
theorem replies_iff (handled : List Handled) : Replies handled ↔ ∀ h ∈ handled, Answered h := by
  refine ⟨Replies.answered, fun hans => ⟨hans, ?_⟩⟩
  -- what other messages pushed is empty
  have hflat : (handled.map Handled.pushed).flatten
      = ((requests handled).map Handled.pushed).flatten := by
    induction handled with
    | nil => rfl
    | cons h handled ih =>
      have hrest := ih fun h' hh => hans h' (List.mem_cons_of_mem _ hh)
      have hhead := hans h List.mem_cons_self
      rw [Answered] at hhead
      rw [List.map_cons, List.flatten_cons, hrest]
      unfold requests
      rw [List.filter_cons]
      rcases hr : replyType (Mem.ofList h.message) with - | t
      · rw [hr] at hhead
        rw [show h.pushed = [] from hhead]
        rfl
      · rfl
  rw [hflat]
  apply deframe_flatten ofpSize_nil
  intro bs hbs
  obtain ⟨h, hmem, rfl⟩ := List.mem_map.mp hbs
  obtain ⟨hmem, hreq⟩ := List.mem_filter.mp hmem
  have hh := hans h hmem
  rw [Answered] at hh
  rcases hr : replyType (Mem.ofList h.message) with - | t
  · rw [hr] at hreq
    cases hreq
  · rw [hr] at hh
    exact (IsReply.wellFormed hh).isFrame

/-- In a run that handles full-size messages the replies are as they should be exactly when
every GET_CONFIG_REQUEST finds a configuration that can be sent. -/
theorem runCalls_replies_iff (calls : List Call) (config config' : OfpSwitchConfig)
    (fs fs' : Fakeswitch) (log : List Removed)
    (hrun : runCalls calls config fs = .ok (config', fs', log))
    (hfull : ∀ h ∈ handledOf log, FullSize h.message) :
    Replies (handledOf log)
      ↔ ConfigKnown config.Sendable ((handledOf log).map Handled.message) := by
  rw [replies_iff]
  exact (runCalls_repliesLaw hrun hfull).answered_iff

/-- A SET_CONFIG with `miss_send_len` 128. -/
def setConfig : List UInt8 := [4, 9, 0, 12, 0, 0, 0, 1, 0, 0, 0, 128]

def getConfigRequest (xid : UInt8) : List UInt8 := [4, 7, 0, 8, 0, 0, 0, xid]

/-- A run that handles a SET_CONFIG, a GET_CONFIG_REQUEST and an ECHO_REQUEST. -/
def configLog : List Removed :=
  [.handled ⟨setConfig, []⟩,
   .handled ⟨getConfigRequest 5, [4, 8, 0, 12, 0, 0, 0, 5, 0, 0, 0, 128]⟩,
   .handled ⟨echoRequest 6, [4, 3, 0, 8, 0, 0, 0, 6]⟩]

theorem runCalls_replies_iff_configLog :
    Replies (handledOf configLog)
      ↔ ConfigKnown switch_config.Sendable ((handledOf configLog).map Handled.message) :=
  runCalls_replies_iff [.io (ioReadUpTo 28)] switch_config _
    (connectedSwitch .latency (setConfig ++ getConfigRequest 5 ++ echoRequest 6)) _ configLog
    rfl (by decide)

/-- Before any SET_CONFIG the length of the stored configuration is in host order. -/
theorem not_replies_getConfigRequest :
    ∃ config' fs' log,
      runCalls [.io (ioReadUpTo 8)] switch_config
        (connectedSwitch .latency (getConfigRequest 5)) = .ok (config', fs', log) ∧
      (∀ h ∈ handledOf log, FullSize h.message) ∧ ¬ Replies (handledOf log) := by
  refine ⟨_, _, [.handled ⟨getConfigRequest 5, [4, 8, 12, 0, 0, 0, 0, 5, 0, 0, 0, 0]⟩], rfl,
    by decide, fun h => ?_⟩
  have hans := h.answered _ List.mem_cons_self
  exact absurd (IsReply.wellFormed (t := .getConfigReply) hans) (by decide)

end OfcBenchmark
