import OfcBenchmark.LockstepTheorems

/-!
# The values of samples

`printResult` computes with `int`s. A value from 2 GiB on is read as a negative number, a hundred
times the memory that is used does not fit from 21 GB on, and the size it is divided by is what was
stored last, or 0 (`samples_exact_iff`).
-/

namespace OfcBenchmark
open Printf Runs

/-! ## Integers of 32 bits -/

theorem natAbs_toInt_tdiv_le (n d : ℤ) : ((toInt n).tdiv d).natAbs ≤ 2 ^ 31 := by
  have hbounds := toInt_bounds n
  exact (Int.natAbs_tdiv_le_natAbs _ _).trans (by omega)

/-- From 2³¹ on, it is the number less a multiple of 2³². -/
theorem toInt_of_ge {n : ℤ} (h : 2 ^ 31 ≤ n) : toInt n ≤ n - 2 ^ 32 := by
  have hlt := (toInt_bounds n).2
  have hmod : (n - toInt n) % 2 ^ 32 = 0 := by
    rw [toInt_eq_bmod]
    exact Int.emod_eq_zero_of_dvd Int.dvd_self_sub_bmod
  omega

/-- Up to the end of `long`, `atoi` narrows the number. -/
theorem atoiInt_of_atoi {t : Text} {v : ℤ} (h : atoi t = v) (hnonneg : 0 ≤ v) (hlt : v < 2 ^ 63) :
    atoiInt t = toInt v := by
  rw [atoiInt, h, min_eq_right (by omega), max_eq_right (by omega)]

/-- The percentage is right exactly if a hundred times the number fits. -/
theorem percentage_iff {size used : ℤ} (hpos : 0 < size) (hsize : size < 2 ^ 31)
    (hnonneg : 0 ≤ used) :
    (toInt (used * 100)).tdiv size = 100 * used / size ↔ used ≤ 21474836 := by
  constructor
  · intro h
    by_contra hgt
    have hlarge : toInt (used * 100) ≤ used * 100 - 2 ^ 32 := toInt_of_ge (by omega)
    have hbelow : (toInt (used * 100)).tdiv size ≤ (100 * used - size).tdiv size :=
      Int.tdiv_le_tdiv hpos (by omega)
    have hless : (100 * used - size).tdiv size = 100 * used / size - 1 := by
      rw [Int.tdiv_eq_ediv_of_nonneg (by omega), Int.sub_ediv_of_dvd _ (dvd_refl size),
        Int.ediv_self hpos.ne']
    omega
  · intro h
    rw [toInt_of_fits (by omega) (by omega), Int.tdiv_eq_ediv_of_nonneg (by omega), mul_comm]

/-- The KiB of a counter are right exactly if it fits. -/
theorem kibibytes_iff {v : ℤ} (hnonneg : 0 ≤ v) :
    (toInt v).tdiv 1024 = v / 1024 ↔ v < 2 ^ 31 := by
  constructor
  · intro h
    by_contra hge
    have hlarge : toInt v ≤ v - 2 ^ 32 := toInt_of_ge (by omega)
    have hbelow : (toInt v).tdiv 1024 ≤ (v - 1024).tdiv 1024 :=
      Int.tdiv_le_tdiv (by decide) (by omega)
    rw [Int.tdiv_eq_ediv_of_nonneg (by omega) (a := v - 1024)] at hbelow
    omega
  · intro h
    rw [toInt_of_fits (by omega) h, Int.tdiv_eq_ediv_of_nonneg hnonneg]

/-! ## Variables in any order -/

/-- A variable that is stored, and when. -/
structure StoredVariable where
  now : Timeval
  name : ReadableName
  token : Text

/-- The state without the cursors. -/
def SnmpState.samples (s : SnmpState) : SnmpState :=
  { s with op := 0, current_oid := 0, active_hosts := 0 }

section Stored

variable (fl : ℚ → ℚ) (tStart : Timeval)

/-- Store these variables. -/
def storeVariables (vars : List StoredVariable) (s : SnmpState) : Option SnmpState :=
  vars.foldlM (fun s v => storeVariable fl tStart v.now v.name v.token s) s

/-- These variables have been stored, in this order. -/
def Stored (vars : List StoredVariable) (s : SnmpState) : Prop :=
  storeVariables fl tStart vars initializeSnmp = some s.samples

/-- When RAM_USED is stored, `ramSize` is not 0. -/
def NoDivisionByZero (vars : List StoredVariable) : Prop :=
  ∀ before v after s, vars = before ++ v :: after → Stored fl tStart before s →
    v.name = .ramUsed → s.ramSize ≠ 0

end Stored

/-- The last RAM_SIZE as it is read, or what `initializeSnmp` sets it to. -/
def ramSizeRead (vars : List StoredVariable) : ℤ :=
  vars.foldl (fun size v => if v.name = .ramSize then atoiInt v.token else size) 0

/-- The last RAM_SIZE is the text of this number. -/
def LastRamSize (size : ℤ) (vars : List StoredVariable) : Prop :=
  ∃ before v after, vars = before ++ v :: after ∧ v.name = .ramSize ∧ atoi v.token = size ∧
    ∀ v' ∈ after, v'.name ≠ .ramSize

/-- A sample of the memory is put into its queue, which is the percentage that is used. -/
def MemoryExact (size used : ℤ) (s : SnmpState) (result : Option SnmpState) : Prop :=
  ∃ s' sample, result = some s' ∧ s'.queues MEMORY = s.queues MEMORY ++ [formatInt sample] ∧
    sample = 100 * used / size ∧ 0 ≤ sample ∧ sample ≤ 100

/-- A sample of a counter is put into its queue, which is the counter in KiB. -/
def OctetsExact (ID : QueueId) (v : ℤ) (s : SnmpState) (result : Option SnmpState) : Prop :=
  ∃ s', result = some s' ∧ s'.queues ID = s.queues ID ++ [formatInt (v / 1024)]

variable {fl : ℚ → ℚ} {tStart now : Timeval} {s s' : SnmpState} {token : Text}

theorem formatInt_injective : Function.Injective formatInt :=
  Function.LeftInverse.injective atoi_formatInt

/-- An `int` has space in a message. -/
theorem enqueue_formatInt {n : ℤ} (hn : n.natAbs ≤ 2 ^ 31) (ID : QueueId) :
    (s.enqueue (formatInt n) ID 50).queues ID = s.queues ID ++ [formatInt n] := by
  have hlength : (formatInt n).length ≤ 11 := by
    rw [length_formatInt_le_iff n (by decide)]
    omega
  have htake {k : ℕ} (hk : 11 ≤ k) : (formatInt n).take k = formatInt n :=
    List.take_of_length_le (hlength.trans hk)
  show enqueueMessage ((formatInt n).take 49) s.queues ID false 50 ID = _
  rw [htake (by decide), enqueueMessage_self, if_neg Bool.false_ne_true, htake (by decide)]

/-- A sample is the number that is wanted exactly if the number that is computed is. -/
theorem enqueue_eq_iff {n m : ℤ} (hn : n.natAbs ≤ 2 ^ 31) (ID : QueueId) :
    (s.enqueue (formatInt n) ID 50).queues ID = s.queues ID ++ [formatInt m] ↔ n = m := by
  rw [enqueue_formatInt hn]
  constructor
  · intro h
    exact formatInt_injective (List.cons.inj (List.append_cancel_left h)).1
  · intro h
    rw [h]

/-- What storing a variable does to `ramSize`. -/
theorem ramSize_storeVariable {name : ReadableName}
    (h : storeVariable fl tStart now name token s = some s') :
    s'.ramSize = if name = .ramSize then atoiInt token else s.ramSize := by
  cases name with
  | ramUsed =>
    unfold storeVariable at h
    dsimp only at h
    split at h
    · cases h
    · cases h
      rfl
  | ramSize | cpuIdle | bytesIn | bytesOut =>
    cases h
    rfl

theorem ramSize_storeVariables {vars : List StoredVariable}
    (h : storeVariables fl tStart vars s = some s') :
    s'.ramSize = vars.foldl
      (fun size v => if v.name = .ramSize then atoiInt v.token else size) s.ramSize := by
  induction vars generalizing s with
  | nil =>
    cases h
    rfl
  | cons v vars ih =>
    obtain ⟨s₁, hfirst, hrest⟩ := Option.bind_eq_some_iff.mp h
    rw [List.foldl_cons, ← ramSize_storeVariable hfirst]
    exact ih hrest

/-- What is divided by. -/
theorem Stored.ramSize_eq {vars : List StoredVariable} (h : Stored fl tStart vars s) :
    s.ramSize = ramSizeRead vars := ramSize_storeVariables h

theorem ramSizeRead_of_last {vars : List StoredVariable} {size : ℤ}
    (h : LastRamSize size vars) (hnonneg : 0 ≤ size) (hlt : size < 2 ^ 31) :
    ramSizeRead vars = size := by
  obtain ⟨before, v, after, rfl, hname, hatoi, hafter⟩ := h
  -- what comes after RAM_SIZE leaves it as it is
  have hkeep (size : ℤ) : after.foldl
      (fun size v => if v.name = .ramSize then atoiInt v.token else size) size = size := by
    clear hatoi
    induction after with
    | nil => rfl
    | cons v' after ih =>
      obtain ⟨hne, hafter⟩ := List.forall_mem_cons.mp hafter
      rw [List.foldl_cons, if_neg hne]
      exact ih hafter
  rw [ramSizeRead, List.foldl_append, List.foldl_cons, if_pos hname, hkeep,
    atoiInt_of_atoi hatoi hnonneg (by omega), toInt_of_fits (by omega) hlt]

/-- Storing a variable only fails for a division by zero. -/
theorem storeVariable_eq_none_iff {name : ReadableName} :
    storeVariable fl tStart now name token s = none ↔ name = .ramUsed ∧ s.ramSize = 0 := by
  cases name with
  | ramUsed =>
    unfold storeVariable
    dsimp only
    split
    case isTrue hzero => exact ⟨fun _ => ⟨rfl, hzero⟩, fun _ => rfl⟩
    case isFalse hne => exact ⟨nofun, fun h => absurd h.2 hne⟩
  | ramSize | cpuIdle | bytesIn | bytesOut => exact ⟨nofun, nofun⟩

theorem memoryExact_iff {size used : ℤ} (hsize : s.ramSize = size) (htoken : atoi token = used)
    (hnonneg : 0 ≤ used) (hle : used ≤ size) (hlt : size < 2 ^ 31) :
    MemoryExact size used s (storeVariable fl tStart now .ramUsed token s) ↔
      0 < size ∧ used ≤ 21474836 := by
  by_cases hzero : size = 0
  · have hnone : storeVariable fl tStart now .ramUsed token s = none :=
      storeVariable_eq_none_iff.mpr ⟨rfl, hsize.trans hzero⟩
    constructor
    · rintro ⟨s', sample, hstore, -⟩
      exact absurd (hnone.symm.trans hstore) nofun
    · rintro ⟨hpos, -⟩
      exact absurd hzero hpos.ne'
  · have hpos : 0 < size := by omega
    have hnumber : atoiInt token = used := by
      rw [atoiInt_of_atoi htoken hnonneg (by omega), toInt_of_fits (by omega) (by omega)]
    have hstore : storeVariable fl tStart now .ramUsed token s
        = some (s.enqueue (formatInt ((toInt (used * 100)).tdiv size)) MEMORY 50) := by
      unfold storeVariable
      dsimp only
      rw [hsize, if_neg hzero, hnumber]
    have hspace : ((toInt (used * 100)).tdiv size).natAbs ≤ 2 ^ 31 := natAbs_toInt_tdiv_le _ _
    rw [hstore, ← percentage_iff hpos hlt hnonneg, and_iff_right hpos]
    constructor
    · rintro ⟨s', sample, hs', hqueue, hsample, -⟩
      cases hs'
      rw [← hsample]
      exact (enqueue_eq_iff hspace MEMORY).mp hqueue
    · intro heq
      refine ⟨_, _, rfl, (enqueue_eq_iff hspace MEMORY).mpr heq, rfl, ?_, ?_⟩
      · exact Int.ediv_nonneg (by omega) hpos.le
      · exact Int.ediv_le_of_le_mul hpos (by omega)

theorem octetsExact_iff {name : ReadableName} {ID : QueueId}
    (hname : name = .bytesIn ∧ ID = IN ∨ name = .bytesOut ∧ ID = OUT) {v : ℤ}
    (htoken : atoi token = v) (hnonneg : 0 ≤ v) (hlt : v < 2 ^ 32) :
    OctetsExact ID v s (storeVariable fl tStart now name token s) ↔ v < 2 ^ 31 := by
  have hstore : storeVariable fl tStart now name token s
      = some (s.enqueue (formatInt ((toInt v).tdiv 1024)) ID 50) := by
    rw [← atoiInt_of_atoi htoken hnonneg (by omega)]
    rcases hname with ⟨rfl, rfl⟩ | ⟨rfl, rfl⟩ <;> rfl
  have hspace : ((toInt v).tdiv 1024).natAbs ≤ 2 ^ 31 := natAbs_toInt_tdiv_le _ _
  rw [hstore, ← kibibytes_iff hnonneg, ← enqueue_eq_iff hspace ID (s := s)]
  constructor
  · rintro ⟨s', hs', hqueue⟩
    cases hs'
    exact hqueue
  · intro hqueue
    exact ⟨_, rfl, hqueue⟩

theorem storeVariable_samples {name : ReadableName}
    (h : storeVariable fl tStart now name token s = some s') :
    storeVariable fl tStart now name token s.samples = some s'.samples := by
  cases name with
  | ramUsed =>
    unfold storeVariable at h ⊢
    dsimp only at h ⊢
    split at h
    case isTrue => cases h
    case isFalse hne =>
      cases h
      exact if_neg hne
  | ramSize | cpuIdle | bytesIn | bytesOut =>
    cases h
    rfl

/-- Without a division by zero everything is stored. -/
theorem NoDivisionByZero.exists_stored {vars before after : List StoredVariable}
    (h : NoDivisionByZero fl tStart vars) (heq : vars = before ++ after) :
    ∃ s, Stored fl tStart before s := by
  induction before using List.reverseRecOn generalizing after with
  | nil => exact ⟨initializeSnmp, rfl⟩
  | append_singleton before v ih =>
    rw [List.append_assoc] at heq
    obtain ⟨s, hs⟩ := ih heq
    have hne : storeVariable fl tStart v.now v.name v.token s ≠ none := fun hnone =>
      have hzero := storeVariable_eq_none_iff.mp hnone
      h before v after s heq hs hzero.1 hzero.2
    obtain ⟨s', hs'⟩ := Option.ne_none_iff_exists'.mp hne
    refine ⟨s', ?_⟩
    unfold Stored storeVariables at hs ⊢
    rw [List.foldlM_append, hs]
    show (storeVariable fl tStart v.now v.name v.token s.samples).bind some = some s'.samples
    rw [storeVariable_samples hs', Option.bind_some]

theorem noDivisionByZero_iff {vars : List StoredVariable} :
    NoDivisionByZero fl tStart vars ↔ ∀ before v after, vars = before ++ v :: after →
      v.name = .ramUsed → ramSizeRead before ≠ 0 := by
  constructor
  · intro h before v after heq hname
    obtain ⟨s, hs⟩ := h.exists_stored heq
    rw [← hs.ramSize_eq]
    exact h before v after s heq hs hname
  · intro h before v after s heq hs hname
    rw [hs.ramSize_eq]
    exact h before v after heq hname

/-! ## In runs of the poller -/

/-- The variables of a response under the names from entry `op` of `oids` on. -/
def namedFrom (now : Timeval) : ℕ → List Text → List StoredVariable
  | _, [] => []
  | op, vp :: vps =>
    match strtok vp, oids[op]? with
    | some token, some name => ⟨now, name, token⟩ :: namedFrom now (op + 1) vps
    | _, _ => []

/-- The variables that are stored in a step. -/
def storedIn (t : SnmpTransition) : List StoredVariable :=
  match t.event with
  | .response pdu now _ =>
    if pdu.errstat = SNMP_ERR_NOERROR then namedFrom now t.pre.op pdu.variable_list else []
  | .start _ | .timeout => []

theorem storeVariables_printVariable {vps : List Text}
    (h : vps.foldlM (printVariable fl tStart now) s = some s') :
    storeVariables fl tStart (namedFrom now s.op vps) s.samples = some s'.samples := by
  induction vps generalizing s with
  | nil =>
    cases h
    rfl
  | cons vp vps ih =>
    obtain ⟨s₁, hfirst, hrest⟩ := Option.bind_eq_some_iff.mp h
    obtain ⟨token, htoken, hfirst⟩ := Option.bind_eq_some_iff.mp hfirst
    obtain ⟨name, hname, hfirst⟩ := Option.bind_eq_some_iff.mp hfirst
    obtain ⟨s₂, hstore, hmove⟩ := Option.bind_eq_some_iff.mp hfirst
    obtain ⟨hop, -, -⟩ := storeVariable_cursors hstore
    cases hmove
    -- the names go on with `op`, which storing leaves alone
    rw [namedFrom, htoken, hname]
    have hstored := ih hrest
    dsimp only at hstored ⊢
    rw [hop] at hstored
    unfold storeVariables at hstored ⊢
    rw [List.foldlM_cons, storeVariable_samples hstore]
    exact hstored

theorem storeVariables_step {e : SnmpEvent} (h : SnmpStep fl tStart s e s') :
    storeVariables fl tStart (storedIn ⟨s, e, s'⟩) s.samples = some s'.samples := by
  have hrun := runSnmp_of_step h
  cases e with
  | start sent =>
    cases hrun
    rfl
  | timeout =>
    cases hrun
    rfl
  | response pdu now sent =>
    obtain ⟨s₁, hprint, hrest⟩ := Option.bind_eq_some_iff.mp hrun
    -- what is sent next has no effect on the samples
    have hsamples : s₁.samples = s'.samples := by
      dsimp only at hrest
      split at hrest <;> cases hrest <;> rfl
    rw [← hsamples]
    unfold printResult at hprint
    unfold storedIn
    dsimp only
    split at hprint
    case isTrue hstatus =>
      rw [if_pos hstatus]
      exact storeVariables_printVariable hprint
    case isFalse hstatus =>
      cases hprint
      rw [if_neg hstatus]
      rfl

/-- A run of the poller stores variables, one after the other. -/
theorem storeVariables_run {history : List SnmpTransition}
    (hrun : Run (SnmpStep fl tStart) s history s') :
    storeVariables fl tStart (history.flatMap storedIn) s.samples = some s'.samples := by
  induction hrun with
  | nil s => rfl
  | cons hstep _ ih =>
    have hfirst := storeVariables_step hstep
    unfold storeVariables at hfirst ih ⊢
    rw [List.flatMap_cons, List.foldlM_append, hfirst]
    exact ih

/-- What is stored in a run from the start on leads to its state. -/
theorem stored_of_run {history : List SnmpTransition}
    (hrun : Run (SnmpStep fl tStart) initializeSnmp history s) :
    Stored fl tStart (history.flatMap storedIn) s := storeVariables_run hrun

/-! ## The samples -/

/-- A sample of the memory is right exactly if there is any memory, and a hundred times what is
used fits into an `int`; one of a counter is, exactly if the counter fits into one. And nothing is
divided by zero exactly if, whenever RAM_USED is stored, a RAM_SIZE was stored before and the last
one is not read as 0. In each run of the poller variables are stored in this way. -/
theorem samples_exact_iff (fl : ℚ → ℚ) (tStart : Timeval) :
    (∀ vars s, Stored fl tStart vars s →
      ∀ now token size used, LastRamSize size vars → atoi token = used →
        0 ≤ used → used ≤ size → size < 2 ^ 31 →
          (MemoryExact size used s (storeVariable fl tStart now .ramUsed token s) ↔
            0 < size ∧ used ≤ 21474836)) ∧
    (∀ s now token v, atoi token = v → 0 ≤ v → v < 2 ^ 32 →
      (OctetsExact IN v s (storeVariable fl tStart now .bytesIn token s) ∧
          OctetsExact OUT v s (storeVariable fl tStart now .bytesOut token s) ↔ v < 2 ^ 31)) ∧
    (∀ vars, NoDivisionByZero fl tStart vars ↔ ∀ before v after, vars = before ++ v :: after →
      v.name = .ramUsed → ramSizeRead before ≠ 0) ∧
    ∀ history s, Run (SnmpStep fl tStart) initializeSnmp history s →
      Stored fl tStart (history.flatMap storedIn) s := by
  refine ⟨?_, ?_, fun vars => noDivisionByZero_iff, fun history s => stored_of_run⟩
  · intro vars s hs now token size used hlast htoken hnonneg hle hlt
    have hsize : s.ramSize = size :=
      hs.ramSize_eq.trans (ramSizeRead_of_last hlast (hnonneg.trans hle) hlt)
    exact memoryExact_iff hsize htoken hnonneg hle hlt
  · intro s now token v htoken hnonneg hlt
    rw [octetsExact_iff (.inl ⟨rfl, rfl⟩) htoken hnonneg hlt,
      octetsExact_iff (.inr ⟨rfl, rfl⟩) htoken hnonneg hlt, and_self]

/-- RAM_SIZE with this number. -/
def ramSizeOf (size : ℤ) : StoredVariable := ⟨⟨0, 0⟩, .ramSize, formatInt size⟩

/-- The state it leaves at the start. -/
def sizedState (size : ℤ) : SnmpState := { initializeSnmp with ramSize := size }

theorem samples_exact_iff_oneGigabyte :
    MemoryExact 1000000 250000 (sizedState 1000000)
        (storeVariable id ⟨0, 0⟩ ⟨1, 0⟩ .ramUsed (formatInt 250000) (sizedState 1000000)) ∧
      OctetsExact IN 1048576 initializeSnmp
        (storeVariable id ⟨0, 0⟩ ⟨1, 0⟩ .bytesIn (formatInt 1048576) initializeSnmp) := by
  have hread : atoiInt (formatInt 1000000) = 1000000 :=
    (atoiInt_of_atoi (atoi_formatInt _) (by decide) (by decide)).trans
      (toInt_of_fits (by decide) (by decide))
  have hstored : Stored id ⟨0, 0⟩ [ramSizeOf 1000000] (sizedState 1000000) := by
    show some { initializeSnmp with ramSize := atoiInt (formatInt 1000000) } = _
    rw [hread]
    rfl
  have hlast : LastRamSize 1000000 [ramSizeOf 1000000] :=
    ⟨[], _, [], rfl, rfl, atoi_formatInt 1000000, nofun⟩
  constructor
  · exact ((samples_exact_iff id ⟨0, 0⟩).1 _ _ hstored ⟨1, 0⟩ _ _ 250000 hlast (atoi_formatInt _)
      (by decide) (by decide) (by decide)).mpr (by decide)
  · exact (((samples_exact_iff id ⟨0, 0⟩).2.1 initializeSnmp ⟨1, 0⟩ _ 1048576 (atoi_formatInt _)
      (by decide) (by decide)).mpr (by decide)).1

/-- Of 32 GB of memory, 30 are used; 2 GiB were received; and RAM_USED comes first. -/
theorem not_samples_exact_thirtyGigabytes :
    ¬ MemoryExact 32000000 30000000 (sizedState 32000000)
        (storeVariable id ⟨0, 0⟩ ⟨1, 0⟩ .ramUsed (formatInt 30000000) (sizedState 32000000)) ∧
      ¬ OctetsExact IN 2147483648 initializeSnmp
        (storeVariable id ⟨0, 0⟩ ⟨1, 0⟩ .bytesIn (formatInt 2147483648) initializeSnmp) ∧
      ¬ NoDivisionByZero id ⟨0, 0⟩ [⟨⟨0, 0⟩, .ramUsed, formatInt 0⟩] := by
  have hsize : (sizedState 32000000).ramSize = 32000000 := rfl
  refine ⟨?_, ?_, ?_⟩
  · rw [memoryExact_iff hsize (atoi_formatInt _) (by decide) (by decide) (by decide)]
    decide
  · rw [octetsExact_iff (.inl ⟨rfl, rfl⟩) (atoi_formatInt _) (by decide) (by decide)]
    decide
  · rw [noDivisionByZero_iff]
    intro h
    exact h [] _ [] rfl rfl rfl

end OfcBenchmark
