import OfcBenchmark.HandshakeTheorems

/-!
# Fake switches in one process

The handlers of all switches share two pieces of static storage. `reserved_mem`, in which a
TABLE_FEATURES reply is built, is cleared before each use (`copied_fillReservedMem`).
`switch_config` is stored by one message and sent by another, so a switch is independent of
the others exactly as far as its GET_CONFIG_REQUESTs find what it would have found alone
(`independent_iff`).

A process is compared with a run of the switch alone in which the same events happen to it. What
its handlers find on their stacks is part of an event: the bytes that the replies leave unset
(FEATURES_REPLY, MULTIPART_REPLY, the role reply) are the same in both.
-/

namespace OfcBenchmark
open ByteMemory Runs

/-! ## `reserved_mem` -/

/-- What TABLE_FEATURES leaves in the static `reserved_mem`. -/
def fillReservedMem (reserved_mem : Mem) : Mem :=
  let tf := reserved_mem.write 0 (List.replicate 512 0)
  let tf := tf.write 0 (le16 (htons 0x48))
  let tf := tf.write 2 [0x00]
  let tf := tf.write 8 (cString 32 "First Table")
  let tf := tf.write 40 (le64 (htonll 0xffffffffffffffff))
  let tf := tf.write 48 (le64 (htonll 0xffffffffffffffff))
  let tf := tf.write 56 (le32 (htonl OFPTC_DEPRECATED_MASK))
  let tf := tf.write 60 (le32 (htonl 0xffffffff))
  let tf := tf.write 64 (le16 (htons OFPTFPT_MATCH))
  let tf := tf.write 66 (le16 (htons 0x08))
  writeOxm tf 68 2 0x15 []

theorem agreeBelow_writeOxm {n : ℕ} {m m' : Mem} (h : Mem.AgreeBelow n m m') {p : ℕ}
    (hp : p + 4 ≤ n) (length : UInt8) (field : ℕ) (data : List UInt8) :
    Mem.AgreeBelow n (writeOxm m p length field data) (writeOxm m' p length field data) := by
  have hheader := (h.write p [length]).write (p + 2) (le16 OFPXMC_OPENFLOW_BASIC)
  have hdata (bs : List UInt8) := (hheader.write (p + 1) bs).write (p + 4) data
  unfold writeOxm htonOxmHdr
  dsimp only
  rw [hheader (p + 1) (by omega), (hdata _).load32_eq hp]
  exact (hdata _).write p _

/-- The bytes a TABLE_FEATURES reply copies: its `length` says how many. -/
def tableFeaturesCopied (tf : Mem) : List UInt8 := tf.read 0 (htons (tf.load16 0))

/-- What a reply takes from `reserved_mem` does not depend on what it held before. -/
theorem copied_fillReservedMem (reserved_mem : Mem) :
    tableFeaturesCopied (fillReservedMem reserved_mem) = tableFeaturesCopied tableFeatures := by
  have hclear : Mem.AgreeBelow 512 (reserved_mem.write 0 (List.replicate 512 0)) fun _ => 0 := by
    intro i hi
    have hlen : i < (List.replicate 512 (0 : UInt8)).length := by rwa [List.length_replicate]
    rw [← Nat.zero_add i, Mem.write_apply _ _ 0 hlen, List.getElem_replicate]
  have hfill : Mem.AgreeBelow 512 (fillReservedMem reserved_mem) tableFeatures :=
    agreeBelow_writeOxm (hclear.write _ _ |>.write _ _ |>.write _ _ |>.write _ _ |>.write _ _
      |>.write _ _ |>.write _ _ |>.write _ _ |>.write _ _) (by decide) _ _ _
  rw [tableFeaturesCopied, hfill.load16_eq (by decide)]
  exact hfill.read_eq (by decide)

/-! ## The processes -/

/-- The fake switches of a process, and the `switch_config` they share. -/
structure Fleet (ι : Type) where
  config : OfpSwitchConfig
  switches : ι → Fakeswitch

section Fleet

variable {ι : Type} [DecidableEq ι]

/-- What a handler sees that works on switch `i`. -/
def Fleet.get (F : Fleet ι) (i : ι) : SwitchState where
  config := F.config
  fs := F.switches i

/-- What it leaves. -/
def Fleet.set (F : Fleet ι) (i : ι) (s : SwitchState) : Fleet ι where
  config := s.config
  switches := Function.update F.switches i s.fs

/-- Whether this is something that happens to the switch itself. -/
def SwitchEvent.isOwn : SwitchEvent → Bool
  | .configure _ => false
  | _ => true

/-- One step of a process: something happens to one of its switches. -/
def FleetStep (F : Fleet ι) (e : ι × SwitchEvent) (F' : Fleet ι) : Prop :=
  e.2.isOwn = true ∧ ∃ s', SwitchStep (F.get e.1) e.2 s' ∧ F' = F.set e.1 s'

/-- A step of a process. -/
abbrev FleetTransition (ι : Type) := Transition (Fleet ι) (ι × SwitchEvent)

/-- What happened to switch `i`. -/
def ownHistory (i : ι) (history : List (FleetTransition ι)) : List SwitchTransition :=
  (history.filter fun t => t.event.1 = i).map fun t =>
    ⟨t.pre.get i, t.event.2, t.post.get i⟩

/-- The bytes a step pushes to `outbuf`. -/
def pushed (t : SwitchTransition) : List UInt8 := (queued t).flatten

end Fleet

/-! ## The configuration that is sent -/

/-- What of a stored configuration a reply shows: all but the type and the xid. -/
def OfpSwitchConfig.shown (config : OfpSwitchConfig) : List UInt8 :=
  [config.header.version] ++ le16 config.header.length ++ le16 config.flags
    ++ le16 config.miss_send_len

/-- The event handles a message of this type. -/
def SwitchEvent.handles (type : Ofp131Type) : SwitchEvent → Prop
  | .message _ _ _ ofph _ => Ofp131Type.ofByte (ofph 1) = some type
  | _ => False

/-- The part that is shown, after an event. -/
def storeConfig (shown : List UInt8) : SwitchEvent → List UInt8
  | .message _ _ _ ofph _ =>
    if Ofp131Type.ofByte (ofph 1) = some .setConfig then (parseSetConfig ofph).shown else shown
  | _ => shown

/-- Two configurations give the same reply exactly if they show the same. -/
theorem bytes_makeConfigReply_eq_iff (config config' : OfpSwitchConfig) (xid : ℕ) (buf : Mem) :
    (makeConfigReply config xid buf).1.bytes = (makeConfigReply config' xid buf).1.bytes ↔
      config.shown = config'.shown := by
  simp [makeConfigReply, OfpSwitchConfig.bytes, OfpHeader.bytes, OfpSwitchConfig.shown, le16]

/-! ## Two processes in step -/

section Message

variable (role : Mem) (now : Timeval) (ofph : Mem) (fs : Fakeswitch) (buf : Mem)
  (config config' : OfpSwitchConfig)

/-- Handling a message looks at the configuration in one place. -/
theorem ofp13HandleMessage_fs_congr
    (h : Ofp131Type.ofByte (ofph 1) = some .getConfigRequest → config.shown = config'.shown) :
    (ofp13HandleMessage role now ofph ⟨config, fs, buf⟩).fs
      = (ofp13HandleMessage role now ofph ⟨config', fs, buf⟩).fs := by
  have hdispatch : (ofp13Dispatch role now ofph ⟨config, fs, buf⟩).fs
      = (ofp13Dispatch role now ofph ⟨config', fs, buf⟩).fs := by
    unfold ofp13Dispatch
    rcases ht : Ofp131Type.ofByte (ofph 1) with - | t
    · rfl
    cases t
    case getConfigRequest =>
      dsimp only
      rw [read_makeConfigReply, read_makeConfigReply,
        (bytes_makeConfigReply_eq_iff config config' _ buf).mpr (h ht)]
    case packetOut =>
      dsimp only
      split <;> rfl
    case flowMod =>
      dsimp only
      split <;> rfl
    case multipartRequest =>
      dsimp only
      split
      · rfl
      · split <;> rfl
    all_goals rfl
  show (ofp13Dispatch _ _ _ _).fs.clamp = (ofp13Dispatch _ _ _ _).fs.clamp
  rw [hdispatch]

/-- The reply differs exactly if that place is reached and the configurations show something
different. -/
theorem replyBytes_eq_iff :
    replyBytes role ofph ⟨config, fs, buf⟩ = replyBytes role ofph ⟨config', fs, buf⟩ ↔
      (Ofp131Type.ofByte (ofph 1) = some .getConfigRequest → config.shown = config'.shown) := by
  unfold replyBytes
  rcases ht : Ofp131Type.ofByte (ofph 1) with - | t
  · exact ⟨fun _ => nofun, fun _ => rfl⟩
  cases t
  case getConfigRequest =>
    exact (bytes_makeConfigReply_eq_iff config config' _ buf).trans
      ⟨fun h _ => h, fun h => h rfl⟩
  all_goals exact ⟨fun _ => nofun, fun _ => rfl⟩

/-- What is shown after a message. -/
theorem shown_ofp13HandleMessage :
    (ofp13HandleMessage role now ofph ⟨config, fs, buf⟩).config.shown
      = if Ofp131Type.ofByte (ofph 1) = some .setConfig then (parseSetConfig ofph).shown
        else config.shown := by
  rw [ofp13HandleMessage_config]
  split
  case h_1 ht =>
    rw [ht, if_neg nofun]
    rfl
  case h_2 ht => rw [ht, if_pos rfl]
  case h_3 _ hset => rw [if_neg hset]

end Message

section Step

variable {s s₁ s' s₁' : SwitchState} {e : SwitchEvent}

/-- What is shown after an event of the switch itself. -/
theorem shown_step (hown : e.isOwn = true) (h : SwitchStep s e s₁) :
    s₁.config.shown = storeConfig s.config.shown e := by
  rcases e with env | ⟨role, now, buf, ofph, length⟩ | env | ⟨now, st⟩ | st | ts | config
  case message =>
    cases h
    exact shown_ofp13HandleMessage role now ofph _ buf s.config
  case getCount =>
    obtain ⟨r, -, rfl⟩ := map_eq_ok_iff.mp h
    rfl
  case configure => cases hown
  all_goals
    cases h
    rfl

/-- Where the same happens to the same switch in two processes, it pushes the same and is the
same afterwards, exactly if no configuration is asked for or the same is shown. -/
theorem step_eq_iff (hown : e.isOwn = true) (h : SwitchStep s e s₁) (h' : SwitchStep s' e s₁')
    (hfs : s.fs = s'.fs) :
    (pushed ⟨s, e, s₁⟩ = pushed ⟨s', e, s₁'⟩ ↔
        (e.handles .getConfigRequest → s.config.shown = s'.config.shown)) ∧
      ((e.handles .getConfigRequest → s.config.shown = s'.config.shown) → s₁.fs = s₁'.fs) := by
  obtain ⟨config, fs⟩ := s
  obtain ⟨config', fs'⟩ := s'
  obtain rfl : fs = fs' := hfs
  rcases e with env | ⟨role, now, buf, ofph, length⟩ | env | ⟨now, st⟩ | st | ts | config''
  case message =>
    cases h
    cases h'
    have hpushed (s : SwitchState) : pushed ⟨s, .message role now buf ofph length,
        s.next role now buf ofph length⟩ = replyBytes role ofph ⟨s.config, s.fs, buf⟩ :=
      List.flatten_singleton
    rw [hpushed, hpushed]
    exact ⟨replyBytes_eq_iff role ofph fs buf config config',
      ofp13HandleMessage_fs_congr role now ofph _ buf config config'⟩
  case getCount =>
    obtain ⟨r, hr, rfl⟩ := map_eq_ok_iff.mp h
    obtain ⟨r', hr', rfl⟩ := map_eq_ok_iff.mp h'
    cases hr.symm.trans hr'
    exact ⟨⟨fun _ => nofun, fun _ => rfl⟩, fun _ => rfl⟩
  case configure => cases hown
  all_goals
    cases h
    cases h'
    exact ⟨⟨fun _ => nofun, fun _ => rfl⟩, fun _ => rfl⟩

end Step

/-! ## The run of one switch alone -/

/-- The switches have the same to read. -/
structure SameInput (fs fs' : Fakeswitch) : Prop where
  inbuf_eq : fs.inbuf = fs'.inbuf
  rx_eq : fs.sock.rx = fs'.sock.rx

/-- What only pushes leaves the input alone. -/
theorem SameInput.of_onlyPushes {fs fs' fs₁ fs₁' : Fakeswitch} (h : SameInput fs fs')
    (hpushes : OnlyPushes fs fs₁) (hpushes' : OnlyPushes fs' fs₁') : SameInput fs₁ fs₁' where
  inbuf_eq := by rw [hpushes.inbuf_eq, hpushes'.inbuf_eq, h.inbuf_eq]
  rx_eq := by rw [hpushes.sock_eq, hpushes'.sock_eq, h.rx_eq]

theorem msgbufRead_congr {sock sock' : Socket} (h : sock.rx = sock'.rx) (m : Msgbuf)
    (t : Transfer) :
    (msgbufRead m sock' t).1 = (msgbufRead m sock t).1 ∧
      (msgbufRead m sock' t).2.1.rx = (msgbufRead m sock t).2.1.rx ∧
      (msgbufRead m sock' t).2.2 = (msgbufRead m sock t).2.2 := by
  obtain ⟨rx, tx⟩ := sock
  obtain ⟨rx', tx'⟩ := sock'
  obtain rfl : rx = rx' := h
  cases t <;> exact ⟨rfl, rfl, rfl⟩

theorem drainReads_congr {ts : List Transfer} {inbuf inbuf' : Msgbuf} {sock sock' sock₁ : Socket}
    {blocks : List (List UInt8)} (hrx : sock.rx = sock'.rx)
    (h : drainReads ts inbuf sock = .ok (inbuf', sock₁, blocks)) :
    ∃ sock₁', drainReads ts inbuf sock' = .ok (inbuf', sock₁', blocks) ∧ sock₁.rx = sock₁'.rx := by
  induction ts generalizing inbuf sock sock' blocks with
  | nil =>
    obtain ⟨hbuf, hrx₁, -⟩ := msgbufRead_congr hrx inbuf .error
    cases h
    refine ⟨(msgbufRead inbuf sock' .error).2.1, ?_, hrx₁.symm⟩
    rw [drainReads, hbuf]
  | cons t ts ih =>
    obtain ⟨hbuf, hrx₁, hcount⟩ := msgbufRead_congr hrx inbuf t
    rw [drainReads] at h ⊢
    rw [hbuf, hcount]
    split at h
    case isTrue hle =>
      cases h
      rw [if_pos hle]
      exact ⟨_, rfl, hrx₁.symm⟩
    case isFalse hle =>
      rw [if_neg hle]
      split at h
      · cases h
      · rename_i buf pulled hloop
        obtain ⟨⟨_, _, _⟩, hrest, heq⟩ := map_eq_ok_iff.mp h
        cases heq
        obtain ⟨sock₁', hrest', hrx₂⟩ := ih hrx₁.symm hrest
        rw [hrest']
        exact ⟨sock₁', rfl, hrx₂⟩

/-- What happens to a switch can happen to one that has the same to read. -/
theorem step_sameInput {s s' s₁ : SwitchState} {e : SwitchEvent} (hown : e.isOwn = true)
    (h : SwitchStep s e s₁) (hinput : SameInput s.fs s'.fs) :
    ∃ s₁', SwitchStep s' e s₁' ∧ SameInput s₁.fs s₁'.fs := by
  have ⟨hinbuf, hrx⟩ := hinput
  rcases e with env | ⟨role, now, buf, ofph, length⟩ | env | ⟨now, st⟩ | st | ts | config
  case receive =>
    cases h
    obtain ⟨hbuf, hrx₁, -⟩ := msgbufRead_congr hrx s.fs.inbuf env.transfer
    refine ⟨_, rfl, ?_, ?_⟩
    · show (msgbufRead s.fs.inbuf s.fs.sock _).1 = (msgbufRead s'.fs.inbuf s'.fs.sock _).1
      rw [← hinbuf, hbuf]
    · show (msgbufRead s.fs.inbuf s.fs.sock _).2.1.rx = (msgbufRead s'.fs.inbuf s'.fs.sock _).2.1.rx
      rw [← hinbuf, hrx₁]
  case message =>
    cases h
    refine ⟨_, rfl, ?_, ?_⟩
    · show (ofp13HandleMessage _ _ _ _).fs.inbuf = (ofp13HandleMessage _ _ _ _).fs.inbuf
      rw [ofp13HandleMessage_inbuf, ofp13HandleMessage_inbuf]
      exact congrArg (fun m => (msgbufPull m length).1) hinbuf
    · show (ofp13HandleMessage _ _ _ _).fs.sock.rx = (ofp13HandleMessage _ _ _ _).fs.sock.rx
      rw [ofp13HandleMessage_sock, ofp13HandleMessage_sock]
      exact hrx
  case write =>
    cases h
    refine ⟨_, rfl, ?_, ?_⟩
    · rw [ofp13SwitchHandleWrite_inbuf, ofp13SwitchHandleWrite_inbuf]
      exact hinbuf
    · rw [ofp13SwitchHandleWrite_rx, ofp13SwitchHandleWrite_rx]
      exact hrx
  case changeStatus =>
    cases h
    have hpushes (fs : Fakeswitch) := onlyPushes_switchChangeStatus now fs st
    exact ⟨_, rfl, hinput.of_onlyPushes (hpushes s.fs) (hpushes s'.fs)⟩
  case changeStatusNow =>
    cases h
    have hpushes (fs : Fakeswitch) := onlyPushes_switchChangeStatusNow fs st
    exact ⟨_, rfl, hinput.of_onlyPushes (hpushes s.fs) (hpushes s'.fs)⟩
  case getCount =>
    obtain ⟨r, hr, rfl⟩ := map_eq_ok_iff.mp h
    obtain ⟨⟨inbuf, sock, blocks⟩, hdrain, rfl⟩ := map_eq_ok_iff.mp hr
    obtain ⟨sock', hdrain', hrx₁⟩ := drainReads_congr hrx hdrain
    rw [hinbuf] at hdrain'
    refine ⟨_, map_eq_ok_iff.mpr ⟨_, map_eq_ok_iff.mpr ⟨_, hdrain', rfl⟩, rfl⟩, rfl, hrx₁⟩
  case configure => cases hown

/-! ## Independence -/

/-- What is shown after the events, if something is shown before them. -/
def shownAfter (shown : List UInt8) (events : List SwitchEvent) : List UInt8 :=
  events.foldl storeConfig shown

section Independence

variable {ι : Type} [DecidableEq ι]

/-- Whenever switch `i` is asked for its configuration, the events of all switches and those
of `i` alone have led to the same one. -/
def ConfigsAgree (i : ι) (shown shown' : List UInt8) (events : List (ι × SwitchEvent)) : Prop :=
  ∀ before e after, events = before ++ (i, e) :: after → e.handles .getConfigRequest →
    shownAfter shown (before.map Prod.snd)
      = shownAfter shown' ((before.filter fun e => e.1 = i).map Prod.snd)

/-- In the history of the process, which ends in `F'`, switch `i` pushes at each of its events
what it pushes in its history alone, and it is the same in the end. -/
structure Independent (i : ι) (history : List (FleetTransition ι)) (F' : Fleet ι)
    (alone : List SwitchTransition) (s' : SwitchState) : Prop where
  pushed_eq : (ownHistory i history).map pushed = alone.map pushed
  switch_eq : F'.switches i = s'.fs

theorem configsAgree_cons (i j : ι) (e : SwitchEvent) (shown shown' : List UInt8)
    (events : List (ι × SwitchEvent)) :
    ConfigsAgree i shown shown' ((j, e) :: events) ↔
      (j = i → e.handles .getConfigRequest → shown = shown') ∧
        ConfigsAgree i (storeConfig shown e) (if j = i then storeConfig shown' e else shown')
          events := by
  constructor
  · intro h
    constructor
    · rintro rfl hasks
      exact h [] e events rfl hasks
    · intro before e' after heq hasks
      have hshown := h ((j, e) :: before) e' after (by rw [heq]; rfl) hasks
      rw [List.filter_cons] at hshown
      split
      case isTrue hj =>
        rw [if_pos (by simpa using hj)] at hshown
        exact hshown
      case isFalse hj =>
        rw [if_neg (by simpa using hj)] at hshown
        exact hshown
  · rintro ⟨hfirst, hrest⟩ before e' after heq hasks
    cases before with
    | nil =>
      cases heq
      exact hfirst rfl hasks
    | cons first before =>
      rw [List.cons_append] at heq
      obtain ⟨rfl, htail⟩ := List.cons.inj heq
      have hshown := hrest before e' after htail hasks
      rw [List.filter_cons]
      split at hshown
      case isTrue hj =>
        rw [if_pos (by simpa using hj)]
        exact hshown
      case isFalse hj =>
        rw [if_neg (by simpa using hj)]
        exact hshown

section OwnHistory

variable {i j : ι} (F F₁ : Fleet ι) (e : SwitchEvent) (history : List (FleetTransition ι))

/-- A step of another switch is not in the history of this one. -/
theorem ownHistory_cons_of_ne (h : j ≠ i) :
    ownHistory i (⟨F, (j, e), F₁⟩ :: history) = ownHistory i history := by
  rw [ownHistory, List.filter_cons_of_neg (by simpa using h)]
  rfl

theorem ownHistory_cons_self :
    ownHistory i (⟨F, (i, e), F₁⟩ :: history)
      = ⟨F.get i, e, F₁.get i⟩ :: ownHistory i history := by
  rw [ownHistory, List.filter_cons_of_pos (by simp)]
  rfl

end OwnHistory

theorem independent_of_ownHistory_eq {i : ι} {history history' : List (FleetTransition ι)}
    {F' : Fleet ι} {alone : List SwitchTransition} {s' : SwitchState}
    (h : ownHistory i history = ownHistory i history') :
    Independent i history F' alone s' ↔ Independent i history' F' alone s' := by
  constructor
  · rintro ⟨hpushed, hswitch⟩
    exact ⟨h ▸ hpushed, hswitch⟩
  · rintro ⟨hpushed, hswitch⟩
    exact ⟨h.symm ▸ hpushed, hswitch⟩

/-- The independence of switch `i`, from two processes that may store different
configurations. -/
theorem independent_iff_of_eq (i : ι) {F F' : Fleet ι} {history : List (FleetTransition ι)}
    {alone : List SwitchTransition} {s s' : SwitchState} (hrun : Run FleetStep F history F')
    (halone : Run SwitchStep s alone s') (hfs : F.switches i = s.fs)
    (hevents : (ownHistory i history).map Transition.event = alone.map Transition.event) :
    Independent i history F' alone s' ↔
      ConfigsAgree i F.config.shown s.config.shown (history.map Transition.event) := by
  induction hrun generalizing s alone with
  | nil F =>
    cases halone with
    | nil s =>
      refine ⟨fun _ before e after heq => ?_, fun _ => ⟨rfl, hfs⟩⟩
      exact absurd heq.symm (List.append_ne_nil_of_right_ne_nil _ (List.cons_ne_nil _ _))
    | cons hstep hrest => cases hevents
  | @cons F F₁ F' e history hstep hrun ih =>
    obtain ⟨j, e⟩ := e
    obtain ⟨hown, s₁, hstep, rfl⟩ := hstep
    have hshown : s₁.config.shown = storeConfig F.config.shown e := shown_step hown hstep
    rw [List.map_cons, configsAgree_cons, ← hshown]
    by_cases hj : j = i
    · subst hj
      rw [ownHistory_cons_self F] at hevents
      cases halone with
      | nil s => cases hevents
      | @cons s s₁' s' e' alone hstep' hrest =>
        obtain ⟨rfl, htail⟩ := List.cons.inj hevents
        obtain ⟨hpushed, hnext⟩ := step_eq_iff hown hstep hstep' hfs
        have hshown' : s₁'.config.shown = storeConfig s.config.shown e := shown_step hown hstep'
        rw [if_pos rfl, ← hshown']
        have hswitch : (F.set j s₁).switches j = s₁.fs := Function.update_self _ _ _
        have hlog : (ownHistory j (⟨F, (j, e), F.set j s₁⟩ :: history)).map pushed
            = pushed ⟨F.get j, e, s₁⟩ :: (ownHistory j history).map pushed := by
          rw [ownHistory_cons_self, List.map_cons, Fleet.get, Fleet.get, hswitch]
          rfl
        constructor
        · rintro ⟨hlogs, hend⟩
          rw [hlog, List.map_cons] at hlogs
          obtain ⟨hfirst, hlogs⟩ := List.cons.inj hlogs
          have hagree := hpushed.mp hfirst
          refine ⟨fun _ => hagree, ?_⟩
          exact (ih hrest (hswitch.trans (hnext hagree)) htail).mp ⟨hlogs, hend⟩
        · rintro ⟨hagree, hagrees⟩
          have hfs₁ := hswitch.trans (hnext (hagree rfl))
          obtain ⟨hlogs, hend⟩ := (ih hrest hfs₁ htail).mpr hagrees
          refine ⟨?_, hend⟩
          rw [hlog, List.map_cons, hlogs, hpushed.mpr (hagree rfl)]
    · -- another switch changes the configuration at most
      have hsame : (F.set j s₁).switches i = s.fs := by
        rw [← hfs]
        exact Function.update_of_ne (Ne.symm hj) _ _
      have hown := ownHistory_cons_of_ne F (F.set j s₁) e history hj
      rw [hown] at hevents
      have hrest := ih halone hsame hevents
      rw [if_neg hj, independent_of_ownHistory_eq hown]
      exact hrest.trans (and_iff_right fun h => absurd h hj).symm

/-- Switch `i` can always make its history alone. -/
theorem exists_alone (i : ι) {F F' : Fleet ι} {history : List (FleetTransition ι)}
    (hrun : Run FleetStep F history F') {s : SwitchState}
    (hinput : SameInput (F.switches i) s.fs) :
    ∃ alone s', Run SwitchStep s alone s' ∧
      (ownHistory i history).map Transition.event = alone.map Transition.event := by
  induction hrun generalizing s with
  | nil F => exact ⟨[], s, .nil s, rfl⟩
  | @cons F F₁ F' e history hstep hrun ih =>
    obtain ⟨j, e⟩ := e
    obtain ⟨hown, s₁, hstep, rfl⟩ := hstep
    by_cases hj : j = i
    · subst hj
      obtain ⟨s₁', hstep', hinput'⟩ := step_sameInput hown hstep hinput
      have hswitch : (F.set j s₁).switches j = s₁.fs := Function.update_self _ _ _
      obtain ⟨alone, s', halone, hevents⟩ := ih (s := s₁') (hswitch ▸ hinput')
      refine ⟨_, s', .cons hstep' halone, ?_⟩
      rw [ownHistory_cons_self, List.map_cons, hevents]
      rfl
    · have hsame : (F.set j s₁).switches i = F.switches i :=
        Function.update_of_ne (Ne.symm hj) _ _
      obtain ⟨alone, s', halone, hevents⟩ := ih (s := s) (hsame.symm ▸ hinput)
      refine ⟨alone, s', halone, ?_⟩
      rw [ownHistory_cons_of_ne F (F.set j s₁) e history hj]
      exact hevents

/-- Whatever the switches of a process handle in whatever order, switch `i` does what it does
alone exactly if it finds the configuration it would have found alone whenever it is asked
for it. What the switches leave in `reserved_mem` makes no difference. -/
theorem independent_iff (i : ι) {F F' : Fleet ι} {history : List (FleetTransition ι)}
    (hrun : Run FleetStep F history F') :
    (∃ alone s', Run SwitchStep (F.get i) alone s' ∧
      (ownHistory i history).map Transition.event = alone.map Transition.event) ∧
    (∀ alone s', Run SwitchStep (F.get i) alone s' →
      (ownHistory i history).map Transition.event = alone.map Transition.event →
      (Independent i history F' alone s' ↔
        ConfigsAgree i F.config.shown F.config.shown (history.map Transition.event))) ∧
    ∀ reserved_mem, tableFeaturesCopied (fillReservedMem reserved_mem)
      = tableFeaturesCopied tableFeatures :=
  ⟨exists_alone i hrun ⟨rfl, rfl⟩,
    fun _ _ halone hevents => independent_iff_of_eq i hrun halone rfl hevents,
    copied_fillReservedMem⟩

end Independence

/-- A SET_CONFIG with a `miss_send_len` of 128 is handled, with nothing else in memory. -/
def handleSetConfig : SwitchEvent :=
  .message (fun _ => 0) ⟨0, 0⟩ (fun _ => 0) (Mem.ofList setConfig) 12

/-- A GET_CONFIG_REQUEST is handled. -/
def handleGetConfig : SwitchEvent :=
  .message (fun _ => 0) ⟨0, 0⟩ (fun _ => 0) (Mem.ofList (getConfigRequest 2)) 8

/-- Two switches that have just connected. -/
def twoSwitches : Fleet Bool where
  config := switch_config
  switches := fun _ => connectedSwitch .latency []

/-- One of them is configured. -/
def otherConfigured : Fleet Bool :=
  twoSwitches.set false
    ((twoSwitches.get false).next (fun _ => 0) ⟨0, 0⟩ (fun _ => 0) (Mem.ofList setConfig) 12)

/-- A switch after the GET_CONFIG_REQUEST. -/
def asked (s : SwitchState) : SwitchState :=
  s.next (fun _ => 0) ⟨0, 0⟩ (fun _ => 0) (Mem.ofList (getConfigRequest 2)) 8

/-- One is configured, then the other is asked. -/
def configureThenAsk : List (FleetTransition Bool) :=
  [⟨twoSwitches, (false, handleSetConfig), otherConfigured⟩,
    ⟨otherConfigured, (true, handleGetConfig),
      otherConfigured.set true (asked (otherConfigured.get true))⟩]

/-- The other is asked. -/
def askAlone : List SwitchTransition :=
  [⟨twoSwitches.get true, handleGetConfig, asked (twoSwitches.get true)⟩]

theorem run_configureThenAsk : Run FleetStep twoSwitches configureThenAsk
    (otherConfigured.set true (asked (otherConfigured.get true))) :=
  .cons ⟨rfl, _, rfl, rfl⟩ (.cons ⟨rfl, _, rfl, rfl⟩ (.nil _))

theorem run_askAlone :
    Run SwitchStep (twoSwitches.get true) askAlone (asked (twoSwitches.get true)) :=
  .single rfl

theorem independent_iff_configureThenAsk :
    Independent true configureThenAsk
        (otherConfigured.set true (asked (otherConfigured.get true))) askAlone
        (asked (twoSwitches.get true)) ↔
      ConfigsAgree true switch_config.shown switch_config.shown
        (configureThenAsk.map Transition.event) :=
  (independent_iff true run_configureThenAsk).2.1 _ _ run_askAlone rfl

/-- The other switch sends the configuration the first was given. -/
theorem not_independent_configureThenAsk :
    (ownHistory true configureThenAsk).map pushed = [[4, 8, 0, 12, 0, 0, 0, 2, 0, 0, 0, 128]] ∧
      askAlone.map pushed = [[4, 8, 12, 0, 0, 0, 0, 2, 0, 0, 0, 0]] ∧
      ¬ Independent true configureThenAsk
        (otherConfigured.set true (asked (otherConfigured.get true))) askAlone
        (asked (twoSwitches.get true)) := by
  have hfleet : (ownHistory true configureThenAsk).map pushed
      = [[4, 8, 0, 12, 0, 0, 0, 2, 0, 0, 0, 128]] := by decide
  have halone : askAlone.map pushed = [[4, 8, 12, 0, 0, 0, 0, 2, 0, 0, 0, 0]] := by decide
  refine ⟨hfleet, halone, ?_⟩
  intro hindependent
  cases hfleet.symm.trans (hindependent.pushed_eq.trans halone)

end OfcBenchmark
