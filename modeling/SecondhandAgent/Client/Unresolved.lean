/-
This file proves what becomes of the operations whose outcome the client does
not know. A list that is stored holds no more operations than there is room
for, each of them for another request, and a save that raises changes nothing.
As long as the text of every list that is stored can be read again, an
operation that was last saved as unknown or blocked is read until its lifetime
ends. A run of saves whose contents take six characters for each of theirs
shows that such a text can be too long, and that everything is then forgotten.
-/

import SecondhandAgent.Client.Pending
import Mathlib.Data.List.Nodup
import Mathlib.Tactic.Linarith

namespace Negotiation.Client

open Store

/-! ### Lists of operations -/

section

variable {account : Utf16} {clock : Nat → Rat}

theorem validRecords_sublist (index : Nat) (seen : List Utf16) (stored : List PendingOperation) :
    (validRecords account clock index seen stored).Sublist stored := by
  induction stored generalizing index seen with
  | nil => exact .slnil
  | cons record rest inductionHypothesis =>
    rw [validRecords]
    split
    · exact (inductionHypothesis _ _).cons_cons _
    · exact (inductionHypothesis _ _).cons _

theorem validRecords_distinct (index : Nat) (seen : List Utf16) (stored : List PendingOperation) :
    ((validRecords account clock index seen stored).map (·.requestId)).Nodup ∧
      ∀ record ∈ validRecords account clock index seen stored, record.requestId ∉ seen := by
  induction stored generalizing index seen with
  | nil => exact ⟨.nil, by simp [validRecords]⟩
  | cons record rest inductionHypothesis =>
    rw [validRecords]
    split
    case isTrue taken =>
      obtain ⟨distinct, fresh⟩ := inductionHypothesis (index + 1) (record.requestId :: seen)
      refine ⟨?_, fun other member => ?_⟩
      · rw [List.map_cons, List.nodup_cons]
        refine ⟨fun repeated => ?_, distinct⟩
        obtain ⟨other, member, same⟩ := List.mem_map.mp repeated
        exact fresh other member (by simp [same])
      · rcases List.mem_cons.mp member with rfl | later
        · exact taken.2
        · exact fun old => fresh other later (List.mem_cons_of_mem _ old)
    case isFalse => exact inductionHypothesis _ _

theorem mem_validRecords {record : PendingOperation} {stored : List PendingOperation}
    (index : Nat) {seen : List Utf16} (member : record ∈ stored)
    (distinct : (stored.map (·.requestId)).Nodup) (fresh : record.requestId ∉ seen)
    (valid : ∀ later, validRecord record account (clock later) = true) :
    record ∈ validRecords account clock index seen stored := by
  induction stored generalizing index seen with
  | nil => cases member
  | cons head rest inductionHypothesis =>
    rw [List.map_cons, List.nodup_cons] at distinct
    rw [validRecords]
    rcases List.mem_cons.mp member with rfl | later
    · rw [if_pos ⟨valid index, fresh⟩]
      exact List.mem_cons_self
    · have other : record.requestId ≠ head.requestId := fun same =>
        distinct.1 (same ▸ List.mem_map_of_mem later)
      split
      · exact List.mem_cons_of_mem _
          (inductionHypothesis _ later distinct.2 (by simp [other, fresh]))
      · exact inductionHypothesis _ later distinct.2 fresh

/-- Where every record is valid and none repeats a request, all of them are read. -/
theorem validRecords_all {stored : List PendingOperation} (index : Nat) {seen : List Utf16}
    (distinct : (stored.map (·.requestId)).Nodup)
    (fresh : ∀ record ∈ stored, record.requestId ∉ seen)
    (valid : ∀ record ∈ stored, ∀ later, validRecord record account (clock later) = true) :
    validRecords account clock index seen stored = stored := by
  induction stored generalizing index seen with
  | nil => rfl
  | cons head rest inductionHypothesis =>
    rw [List.map_cons, List.nodup_cons] at distinct
    have first : head ∈ head :: rest := List.mem_cons_self
    rw [validRecords, if_pos ⟨valid head first index, fresh head first⟩,
      inductionHypothesis (index + 1) distinct.2 (fun record later => ?_)
        fun record later => valid record (List.mem_cons_of_mem _ later)]
    have other : record.requestId ≠ head.requestId := fun same =>
      distinct.1 (same ▸ List.mem_map_of_mem later)
    simp [other, fresh record (List.mem_cons_of_mem _ later)]

/-- At most one operation has to make room in a list that was read. -/
theorem makeRoom_eq {next : List PendingOperation} (most : next.length ≤ operationLimit) :
    makeRoom next.length next = if HasRoom next then some (besides next) else none := by
  rcases Nat.lt_or_ge next.length operationLimit with room | full
  · rw [if_pos (.inl room), besides, if_pos room]
    cases next.length with
    | zero => rfl
    | succ rounds => rw [makeRoom, if_pos room]
  · have length : next.length = operationLimit := by omega
    have exceeds : ¬ next.length < operationLimit := by omega
    have rounds : makeRoom next.length next = makeRoom (98 + 1 + 1) next := by
      rw [length]
      rfl
    rw [rounds, makeRoom, if_neg exceeds, besides, if_neg exceeds]
    by_cases resolvable : next.any PendingOperation.resolved
    · rw [if_pos resolvable, if_pos (.inr resolvable), makeRoom, if_pos]
      obtain ⟨record, member, resolved⟩ := List.any_eq_true.mp resolvable
      rw [List.length_eraseP_of_mem member resolved, length]
      decide
    · rw [if_neg resolvable, if_neg (by simp [HasRoom, exceeds, resolvable])]

theorem besides_sublist (rest : List PendingOperation) : (besides rest).Sublist rest := by
  unfold besides
  split
  · exact List.Sublist.refl _
  · exact List.eraseP_sublist

theorem length_besides {rest : List PendingOperation} (most : rest.length ≤ operationLimit)
    (room : HasRoom rest) : (besides rest).length < operationLimit := by
  unfold besides
  split
  case isTrue below => exact below
  case isFalse full =>
    obtain ⟨record, member, resolved⟩ := List.any_eq_true.mp (room.resolve_left full)
    have shorter := List.length_eraseP_of_mem member resolved
    have positive : 0 < operationLimit := by decide
    omega

/-- Only a resolved operation makes room. -/
theorem mem_besides {rest : List PendingOperation} {record : PendingOperation}
    (member : record ∈ rest) (unresolved : record.resolved = false) : record ∈ besides rest := by
  unfold besides
  split
  · exact member
  · exact (List.mem_eraseP_of_neg (by simp [unresolved])).mpr member

end

/-! ### What is read -/

section

variable {numeral : Rat → Utf16} {storage : Storage} {account : Utf16} {clock : Nat → Rat}

theorem length_read : (read numeral storage account clock).length ≤ operationLimit := by
  unfold read
  split
  · split
    · exact Nat.zero_le _
    · split
      · exact Nat.zero_le _
      · rw [List.length_drop]
        omega
  · exact Nat.zero_le _

theorem read_distinct : ((read numeral storage account clock).map (·.requestId)).Nodup := by
  unfold read
  split
  · split
    · exact .nil
    · split
      · exact .nil
      · exact (validRecords_distinct 0 [] _).1.sublist ((List.drop_sublist _ _).map _)
  · exact .nil

theorem read_stored {record : PendingOperation}
    (member : record ∈ read numeral storage account clock) :
    ∃ stored, storage account = some stored ∧ record ∈ stored := by
  unfold read at member
  split at member
  · split at member
    · cases member
    case h_2 stored found =>
      split at member
      · cases member
      · exact ⟨stored, found,
          (validRecords_sublist 0 [] stored).mem (List.mem_of_mem_drop member)⟩
  · cases member

theorem read_eq_validRecords {stored : List PendingOperation}
    (well : wellFormed account = true) (found : storage account = some stored)
    (short : (stringify numeral stored).length ≤ textLimit)
    (most : stored.length ≤ operationLimit) :
    read numeral storage account clock = validRecords account clock 0 [] stored := by
  have few : (validRecords account clock 0 [] stored).length - operationLimit = 0 := by
    have fewer : (validRecords account clock 0 [] stored).length ≤ stored.length :=
      (validRecords_sublist 0 [] stored).length_le
    omega
  simp only [read, well, found, if_true]
  rw [if_neg (by omega), few, List.drop_zero]

/-- An operation is read from a stored list whose text is not too long. -/
theorem mem_read {record : PendingOperation} {stored : List PendingOperation}
    (well : wellFormed account = true) (found : storage account = some stored)
    (short : (stringify numeral stored).length ≤ textLimit)
    (most : stored.length ≤ operationLimit) (distinct : (stored.map (·.requestId)).Nodup)
    (member : record ∈ stored) (valid : ∀ index, validRecord record account (clock index) = true) :
    record ∈ read numeral storage account clock := by
  rw [read_eq_validRecords well found short most]
  exact mem_validRecords 0 member distinct (by simp) valid

end

/-! ### What a save does -/

section

variable {numeral : Rat → Utf16} {storage : Storage} {operation : PendingOperation}
variable {clock : Nat → Rat} {accepts : Bool}

theorem length_others : (others numeral storage operation clock).length ≤ operationLimit :=
  Nat.le_trans (List.length_filter_le _ _) length_read

theorem others_distinct :
    ((others numeral storage operation clock ++ [operation]).map (·.requestId)).Nodup := by
  rw [List.map_append, List.nodup_append]
  refine ⟨read_distinct.sublist (List.filter_sublist.map _), by simp, ?_⟩
  rintro request old last new rfl
  obtain ⟨record, member, same⟩ := List.mem_map.mp old
  have other := (List.mem_filter.mp member).2
  simp_all

theorem others_stored {record : PendingOperation}
    (member : record ∈ others numeral storage operation clock) :
    ∃ stored, storage operation.account = some stored ∧ record ∈ stored :=
  read_stored (List.mem_of_mem_filter member)

theorem written_eq :
    written numeral storage operation clock =
      if HasRoom (others numeral storage operation clock) then
        some (besides (others numeral storage operation clock) ++ [operation])
      else none := by
  have few : (others numeral storage operation clock).length ≤ operationLimit := length_others
  change (makeRoom (others numeral storage operation clock).length
    (others numeral storage operation clock)).map _ = _
  rw [makeRoom_eq few]
  split <;> rfl

variable (numeral storage operation clock accepts) in
/-- A save raises and changes nothing, or it stores the operation behind the others. -/
theorem save_cases :
    (∃ failure, save numeral storage operation clock accepts = (storage, .error failure)) ∨
      validRecord operation operation.account (clock 0) = true ∧
        wellFormed operation.account = true ∧ accepts = true ∧
        HasRoom (others numeral storage operation clock) ∧
        save numeral storage operation clock accepts =
          (fun account =>
            if account = operation.account then
              some (besides (others numeral storage operation clock) ++ [operation])
            else storage account, .ok ()) := by
  unfold save
  rw [written_eq]
  split
  case isTrue valid =>
    by_cases enough : HasRoom (others numeral storage operation clock)
    · rw [if_pos enough]
      dsimp only
      split
      case isTrue kept =>
        rw [Bool.and_eq_true] at kept
        exact .inr ⟨valid, kept.1, kept.2, enough, rfl⟩
      case isFalse => exact .inl ⟨_, rfl⟩
    · rw [if_neg enough]
      exact .inl ⟨_, rfl⟩
  case isFalse => exact .inl ⟨_, rfl⟩

/-- What a save that raises leaves behind. -/
theorem save_raises {failure : SaveFailure}
    (raises : (save numeral storage operation clock accepts).2 = .error failure) :
    (save numeral storage operation clock accepts).1 = storage := by
  rcases save_cases numeral storage operation clock accepts with
    ⟨other, same⟩ | ⟨-, -, -, -, stored⟩
  · rw [same]
  · rw [stored] at raises
    cases raises

end

/-! ### What is stored -/

/-- A list that is stored for an account. -/
structure Stored (account : Utf16) (now : Rat) (stored : List PendingOperation) : Prop where
  most : stored.length ≤ operationLimit
  distinct : (stored.map (·.requestId)).Nodup
  owned : ∀ record ∈ stored, record.account = account
  sound : ∀ record ∈ stored, record.sound = true
  past : ∀ record ∈ stored, ∃ createdAt, record.createdAt = some createdAt ∧ createdAt ≤ now

def World.Keeps (world : World) : Prop :=
  ∀ account stored, world.storage account = some stored → Stored account world.now stored

theorem Stored.later {account : Utf16} {now later : Rat} {stored : List PendingOperation}
    (holds : Stored account now stored) (after : now ≤ later) : Stored account later stored where
  most := holds.most
  distinct := holds.distinct
  owned := holds.owned
  sound := holds.sound
  past record member := by
    obtain ⟨createdAt, known, before⟩ := holds.past record member
    exact ⟨createdAt, known, le_trans before after⟩

theorem Ticks.start_le {start : Rat} {clock : Nat → Rat} (ticks : Ticks start clock)
    (index : Nat) : start ≤ clock index := by
  induction index with
  | zero => exact ticks.begins
  | succ index inductionHypothesis => exact le_trans inductionHypothesis (ticks.forth index)

theorem validRecord_parts {operation : PendingOperation} {account : Utf16} {now : Rat}
    (valid : validRecord operation account now = true) :
    operation.account = account ∧ operation.sound = true ∧
      ∃ createdAt, operation.createdAt = some createdAt ∧ createdAt ≤ now ∧
        now - createdAt ≤ operationTtl := by
  simp only [validRecord, Bool.and_eq_true, decide_eq_true_eq] at valid
  obtain ⟨⟨owned, sound⟩, alive⟩ := valid
  refine ⟨owned, sound, ?_⟩
  simpa [PendingOperation.aliveAt, Option.any_eq_true] using alive

theorem Stored.valid {account : Utf16} {now time createdAt : Rat} {stored : List PendingOperation}
    {record : PendingOperation} (holds : Stored account now stored) (member : record ∈ stored)
    (known : record.createdAt = some createdAt) (after : now ≤ time)
    (alive : time - createdAt ≤ operationTtl) : validRecord record account time = true := by
  obtain ⟨created, same, before⟩ := holds.past record member
  obtain rfl : createdAt = created := by simpa [known] using same
  simp only [validRecord, PendingOperation.aliveAt, holds.owned record member,
    holds.sound record member, known, Option.any_some, Bool.and_true, decide_true, Bool.true_and,
    decide_eq_true_eq]
  exact ⟨le_trans before after, alive⟩

section

variable {numeral : Rat → Utf16} {world after : World} {event : Event}

/-- What a save stores is well kept if what was stored is. -/
theorem Stored.added {operation : PendingOperation} {clock : Nat → Rat} {done : Rat}
    (keeps : world.Keeps) (ticks : Ticks world.now clock) (ends : ∀ index, clock index ≤ done)
    (valid : validRecord operation operation.account (clock 0) = true)
    (room : HasRoom (others numeral world.storage operation clock)) :
    Stored operation.account done
      (besides (others numeral world.storage operation clock) ++ [operation]) := by
  have elapsed : world.now ≤ done := le_trans ticks.begins (ends 0)
  obtain ⟨-, sound, createdAt, known, before, -⟩ := validRecord_parts valid
  have old : ∀ record ∈ besides (others numeral world.storage operation clock),
      ∃ stored, Stored operation.account done stored ∧ record ∈ stored := fun record member => by
    obtain ⟨stored, found, inside⟩ := others_stored ((besides_sublist _).mem member)
    exact ⟨stored, (keeps _ _ found).later elapsed, inside⟩
  constructor
  case most =>
    have few := length_besides length_others room
    simp only [List.length_append, List.length_singleton]
    omega
  case distinct =>
    exact others_distinct.sublist (((besides_sublist _).append (.refl _)).map _)
  all_goals
    intro record member
    rcases List.mem_append.mp member with earlier | last
  case owned.inl | sound.inl | past.inl =>
    obtain ⟨stored, holds, inside⟩ := old record earlier
    first
      | exact holds.owned record inside
      | exact holds.sound record inside
      | exact holds.past record inside
  case owned.inr | sound.inr | past.inr =>
    obtain rfl := List.mem_singleton.mp last
    first
      | rfl
      | exact sound
      | exact ⟨createdAt, known, le_trans before (ends 0)⟩

theorem Step.later (step : Step numeral world event after) : world.now ≤ after.now := by
  cases step with
  | save ticks ends =>
    have elapsed := le_trans ticks.begins (ends 0)
    unfold saving
    dsimp only
    split <;> exact elapsed
  | read ticks ends => exact le_trans ticks.begins (ends 0)

theorem World.Keeps.step (keeps : world.Keeps) (step : Step numeral world event after) :
    after.Keeps := by
  cases step with
  | @save operation clock accepts done ticks ends =>
    have elapsed := le_trans ticks.begins (ends 0)
    unfold saving
    rcases save_cases numeral world.storage operation clock accepts with
      ⟨failure, same⟩ | ⟨valid, -, -, room, stores⟩
    · rw [same]
      exact fun account stored found => (keeps account stored found).later elapsed
    · rw [stores]
      intro account stored found
      dsimp only at found
      split at found
      case isTrue same =>
        cases found
        exact same ▸ Stored.added keeps ticks ends valid room
      case isFalse => exact (keeps account stored found).later elapsed
  | read ticks ends =>
    exact fun account stored found =>
      (keeps account stored found).later (le_trans ticks.begins (ends 0))

end

/-! ### What is not forgotten -/

/-- The lifetime of an operation has ended. -/
def PendingOperation.Over (operation : PendingOperation) (now : Rat) : Prop :=
  ∃ createdAt, operation.createdAt = some createdAt ∧ operationTtl < now - createdAt

theorem PendingOperation.Over.later {operation : PendingOperation} {now later : Rat}
    (ended : operation.Over now) (after : now ≤ later) : operation.Over later := by
  obtain ⟨createdAt, known, passed⟩ := ended
  exact ⟨createdAt, known, by linarith⟩

/-- The operations of a stored list that is read. -/
def Remembered (numeral : Rat → Utf16) (storage : Storage) (operation : PendingOperation) : Prop :=
  ∃ stored, storage operation.account = some stored ∧ operation ∈ stored ∧
    (stringify numeral stored).length ≤ textLimit ∧ wellFormed operation.account = true

def World.Holds (numeral : Rat → Utf16) (world : World) : Prop :=
  ∀ operation, world.lastSaved operation.account operation.requestId = some operation →
    operation.resolved = false →
      operation.Over world.now ∨ Remembered numeral world.storage operation

section

variable {numeral : Rat → Utf16} {world after : World} {event : Event}
variable {operation : PendingOperation} {clock : Nat → Rat}

/-- What is remembered is read as long as it lives. -/
theorem Remembered.read (keeps : world.Keeps) (start : ∀ index, world.now ≤ clock index)
    (alive : ∀ index createdAt, operation.createdAt = some createdAt →
      clock index - createdAt ≤ operationTtl)
    (remembered : Remembered numeral world.storage operation) :
    operation ∈ read numeral world.storage operation.account clock := by
  obtain ⟨stored, found, member, short, well⟩ := remembered
  have kept := keeps _ _ found
  obtain ⟨createdAt, known, -⟩ := kept.past operation member
  exact mem_read well found short kept.most kept.distinct member fun index =>
    kept.valid member known (start index) (alive index createdAt known)

theorem World.Holds.elapse {now : Rat} (holds : world.Holds numeral) (elapsed : world.now ≤ now) :
    World.Holds numeral { world with now } := fun operation last unresolved =>
  (holds operation last unresolved).imp_left fun ended => ended.later elapsed

/-- A save that fits forgets no unresolved operation. -/
theorem World.Holds.added {done : Rat} (keeps : world.Keeps) (holds : world.Holds numeral)
    (ticks : Ticks world.now clock) (ends : ∀ index, clock index ≤ done)
    (well : wellFormed operation.account = true)
    (fits : (stringify numeral
        (besides (others numeral world.storage operation clock) ++ [operation])).length ≤
          textLimit ∨
      ∀ record ∈ besides (others numeral world.storage operation clock) ++ [operation],
        record.resolved) :
    World.Holds numeral
      ⟨fun account =>
        if account = operation.account then
          some (besides (others numeral world.storage operation clock) ++ [operation])
        else world.storage account, done, operation :: world.saved⟩ := by
  have elapsed : world.now ≤ done := le_trans ticks.begins (ends 0)
  have short : ∀ record, record.resolved = false →
      record ∈ besides (others numeral world.storage operation clock) ++ [operation] →
      (stringify numeral
        (besides (others numeral world.storage operation clock) ++ [operation])).length ≤
          textLimit := fun record unresolved member =>
    fits.resolve_right fun all => by simp [all record member] at unresolved
  intro record last unresolved
  rw [World.lastSaved, List.find?_cons] at last
  split at last
  case h_1 =>
    -- the operation itself was saved
    cases last
    have member : operation ∈ besides (others numeral world.storage operation clock) ++
        [operation] := by simp
    exact .inr ⟨_, if_pos rfl, member, short operation unresolved member, well⟩
  case h_2 differs =>
    have other : ¬ (operation.account = record.account ∧
        operation.requestId = record.requestId) := by simpa using differs
    by_cases ended : record.Over done
    · exact .inl ended
    have remembered := (holds record last unresolved).resolve_left fun before =>
      ended (before.later elapsed)
    right
    by_cases same : record.account = operation.account
    · -- an operation for another request of the account is read and stays
      have alive : ∀ index createdAt, record.createdAt = some createdAt →
          clock (index + 1) - createdAt ≤ operationTtl := fun index createdAt known => by
        have ongoing : ¬ operationTtl < done - createdAt := fun passed => ended ⟨_, known, passed⟩
        linarith [ends (index + 1)]
      have readable := remembered.read keeps (fun index => ticks.start_le (index + 1)) alive
      have inside : record ∈ others numeral world.storage operation clock := by
        refine List.mem_filter.mpr ⟨same ▸ readable, decide_eq_true fun request => ?_⟩
        exact other ⟨same.symm, request.symm⟩
      have member : record ∈ besides (others numeral world.storage operation clock) ++
          [operation] := List.mem_append_left _ (mem_besides inside unresolved)
      exact ⟨_, if_pos same, member, short record unresolved member, same ▸ well⟩
    · obtain ⟨stored, found, rest⟩ := remembered
      exact ⟨stored, by simpa [same] using found, rest⟩

theorem World.Holds.step (keeps : world.Keeps) (holds : world.Holds numeral)
    (fits : event.Fits numeral world) (step : Step numeral world event after) :
    after.Holds numeral := by
  cases step with
  | @save operation clock accepts done ticks ends =>
    unfold saving
    rcases save_cases numeral world.storage operation clock accepts with
      ⟨failure, same⟩ | ⟨valid, well, kept, room, stores⟩
    · rw [same]
      exact holds.elapse (le_trans ticks.begins (ends 0))
    · rw [stores]
      exact holds.added keeps ticks ends well (fits valid well kept room)
  | read ticks ends => exact holds.elapse (le_trans ticks.begins (ends 0))

theorem World.Keeps.run {first : World} {history : List (Transition World Event)}
    (begins : first.Initial) (run : Run (Step numeral) first history world) : world.Keeps :=
  run.kept (fun _ _ _ step keeps => keeps.step step) fun account stored found => by
    rw [begins.1] at found
    cases found

theorem World.Holds.run {first : World} {history : List (Transition World Event)}
    (begins : first.Initial) (run : Run (Step numeral) first history world)
    (fits : ∀ transition ∈ history, transition.event.Fits numeral transition.before) :
    world.Holds numeral := by
  induction run with
  | start =>
    intro operation last
    rw [World.lastSaved, begins.2] at last
    cases last
  | next earlier taken inductionHypothesis =>
    have holds := inductionHypothesis fun transition member =>
      fits transition (List.mem_cons_of_mem _ member)
    exact holds.step (World.Keeps.run begins earlier) (fits _ List.mem_cons_self) taken

/-- In every run at most as many operations are stored as there is room for, each for another
request, and a save that raises leaves what is stored. If the text of every list that was stored
can be read again, then an operation that was last saved as unknown or blocked is read until its
lifetime ends. -/
theorem unresolved_operations_stay {first : World} {history : List (Transition World Event)}
    (begins : first.Initial) (run : Run (Step numeral) first history world) :
    ((∀ transition ∈ history, transition.event.Fits numeral transition.before) →
        ∀ account request operation clock,
          world.lastSaved account request = some operation →
          (operation.status = .unknown ∨ operation.status = .blocked) →
          Ticks world.now clock →
          (∀ index createdAt, operation.createdAt = some createdAt →
            clock index - createdAt ≤ operationTtl) →
          operation ∈ read numeral world.storage account clock) ∧
      (∀ account stored, world.storage account = some stored →
        stored.length ≤ operationLimit ∧ (stored.map (·.requestId)).Nodup) ∧
      ∀ operation clock accepts failure,
        (save numeral world.storage operation clock accepts).2 = .error failure →
          (save numeral world.storage operation clock accepts).1 = world.storage := by
  have keeps := World.Keeps.run begins run
  refine ⟨fun fits account request operation clock last unresolved ticks alive => ?_,
    fun account stored found => ⟨(keeps account stored found).most,
      (keeps account stored found).distinct⟩,
    fun _ _ _ _ raises => save_raises raises⟩
  have holds := World.Holds.run begins run fits
  have named : operation.account = account ∧ operation.requestId = request := by
    simpa using List.find?_some last
  obtain ⟨rfl, rfl⟩ := named
  have unknown : operation.resolved = false := by
    rcases unresolved with same | same <;> simp [PendingOperation.resolved, same]
  rcases holds operation last unknown with ⟨createdAt, known, ended⟩ | remembered
  · -- its lifetime ended before the read
    have lives := alive 0 createdAt known
    linarith [ticks.begins]
  · exact remembered.read keeps ticks.start_le alive

end

/-! ### A run that forgets everything -/

/-- How a natural number is written. -/
def plainNumeral (value : Rat) : Utf16 :=
  (Nat.toDigits 10 value.num.toNat).map fun digit => .ofNat digit.toNat

def messagePayload (request content : Utf16) : OperationPayload where
  entries := [(.requestId, .text request), (.content, .text content), (.clientViewId, .text [97])]
  distinct := by simp

/-- A message of an account at the time 0. -/
def message (request content : Utf16) : PendingOperation where
  account := [97]
  target := [49]
  kind := .message
  requestId := request
  createdAt := some 0
  status := .unknown
  payload := some (messagePayload request content)

/-- A message whose content takes six characters for each of its own. -/
def longMessage (index : Nat) : PendingOperation :=
  message [.ofNat (100 + index)] (List.replicate 4000 1)

def longMessages (count : Nat) : List PendingOperation := (List.range count).map longMessage

/-- A storage with some of these messages. -/
def messagesStored (count : Nat) : Storage := fun account =>
  if account = [97] ∧ 0 < count then some (longMessages count) else none

theorem length_escape_control (count : Nat) :
    (escape (List.replicate count 1)).length = 6 * count := by
  induction count with
  | zero => rfl
  | succ count inductionHypothesis =>
    cases count with
    | zero => decide
    | succ count =>
      rw [List.replicate_succ] at inductionHypothesis ⊢
      have step : escape (1 :: 1 :: List.replicate count 1) =
          hexUnit 1 ++ escape (1 :: List.replicate count 1) := rfl
      rw [List.replicate_succ, step, List.length_append, inductionHypothesis]
      simp [hexUnit]
      omega

theorem length_escape_unit (unit : UInt16) : (escape [unit]).length ≤ 6 := by
  unfold escape escapeUnit hexUnit
  split_ifs <;> simp

theorem length_joined_le {most : Nat} {entries : List Utf16}
    (each : ∀ entry ∈ entries, entry.length ≤ most) :
    (joined entries).length ≤ (most + 1) * entries.length := by
  induction entries with
  | nil => exact Nat.le_refl _
  | cons entry rest inductionHypothesis =>
    obtain ⟨head, tail⟩ := List.forall_mem_cons.mp each
    have later := inductionHypothesis tail
    cases rest with
    | nil =>
      simp only [joined, List.length_singleton]
      omega
    | cons next rest =>
      simp only [joined, List.length_append, List.length_cons] at later ⊢
      rw [Nat.mul_succ]
      omega

theorem le_length_joined {least : Nat} {entries : List Utf16}
    (each : ∀ entry ∈ entries, least ≤ entry.length) :
    least * entries.length ≤ (joined entries).length := by
  induction entries with
  | nil => exact Nat.le_refl _
  | cons entry rest inductionHypothesis =>
    obtain ⟨head, tail⟩ := List.forall_mem_cons.mp each
    have later := inductionHypothesis tail
    cases rest with
    | nil =>
      simp only [joined, List.length_singleton]
      omega
    | cons next rest =>
      simp only [joined, List.length_append, List.length_cons] at later ⊢
      rw [Nat.mul_succ]
      omega

theorem length_write_message (request content : Utf16) :
    ((message request content).write plainNumeral).length =
      167 + 2 * (escape request).length + (escape content).length := by
  have version : (plainNumeral 1).length = 1 := by decide +kernel
  have created : (plainNumeral 0).length = 1 := by decide +kernel
  simp only [message, messagePayload, PendingOperation.write, object, joined, quote,
    PayloadValue.write, writeNumber, PayloadKey.name, OperationKind.name, OperationStatus.name, Option.toList,
    List.map_cons, List.map_nil, List.cons_append, List.nil_append, List.length_cons,
    List.length_append, List.length_nil, version, created]
  simp [units, escape, isHigh, isLow, escapeUnit]
  omega

theorem message_valid {request content : Utf16} (named : isText 64 request = true)
    (filled : isText 4000 content = true) :
    validRecord (message request content) [97] 0 = true := by
  have payload : validPayload .message (messagePayload request content) request = true := by
    have view : (messagePayload request content).get .clientViewId = some (.text [97]) := rfl
    have text : (messagePayload request content).get .content = some (.text content) := rfl
    have original : (messagePayload request content).get .requestId = some (.text request) := rfl
    have absent :
        ∀ key ∈ [PayloadKey.displayReceiptId, .draftId, .draftVersion, .replyToMessageId],
          (messagePayload request content).get key = none := by
      simp only [List.forall_mem_cons, List.not_mem_nil, false_implies, implies_true, and_true]
      exact ⟨rfl, rfl, rfl, rfl⟩
    have known : (messagePayload request content).entries.all
        (fun entry => (fields .message).contains entry.1) = true := rfl
    have viewed : isText 200 [97] = true := rfl
    rw [validPayload, known]
    simp [original, view, text, absent, str, filled, viewed]
  have target : isText 200 [49] = true := rfl
  have number : isNumeral [49] = true := rfl
  simp [validRecord, PendingOperation.sound, PendingOperation.aliveAt, message, named, target,
    number, payload, operationTtl]

theorem longMessage_valid (index : Nat) : validRecord (longMessage index) [97] 0 = true :=
  message_valid rfl (by rw [isText, List.length_replicate]; rfl)

theorem longMessages_distinct {count : Nat} (few : count ≤ 42) :
    ((longMessages count).map (·.requestId)).Nodup := by
  rw [longMessages, List.map_map]
  refine List.Nodup.map_on (fun one left two right same => ?_) List.nodup_range
  rw [List.mem_range] at left right
  have units : UInt16.ofNat (100 + one) = UInt16.ofNat (100 + two) := (List.cons.inj same).1
  have numbers := congrArg UInt16.toNat units
  simp only [UInt16.toNat_ofNat'] at numbers
  omega

theorem length_stringify_longMessages (count : Nat) :
    24000 * count ≤ (stringify plainNumeral (longMessages count)).length ∧
      (stringify plainNumeral (longMessages count)).length ≤ 24180 * count + 2 := by
  have each : ∀ entry ∈ (longMessages count).map (·.write plainNumeral),
      24000 ≤ entry.length ∧ entry.length ≤ 24179 := by
    rw [longMessages, List.map_map]
    intro entry member
    obtain ⟨index, -, rfl⟩ := List.mem_map.mp member
    have request := length_escape_unit (.ofNat (100 + index))
    have content := length_escape_control 4000
    have length := length_write_message [.ofNat (100 + index)] (List.replicate 4000 1)
    simp only [Function.comp_apply, longMessage]
    omega
  have least := le_length_joined fun entry member => (each entry member).1
  have most := length_joined_le fun entry member => (each entry member).2
  simp only [List.length_map, longMessages, List.length_range] at least most
  simp only [stringify, longMessages, List.length_append, List.length_cons, List.length_nil]
  omega

/-- Up to the last message everything that is stored is read. -/
theorem read_messagesStored {count : Nat} (few : count ≤ 41) :
    read plainNumeral (messagesStored count) [97] (fun _ => 0) = longMessages count := by
  rcases Nat.eq_zero_or_pos count with rfl | positive
  · rfl
  have short : (stringify plainNumeral (longMessages count)).length ≤ textLimit := by
    have most := (length_stringify_longMessages count).2
    unfold textLimit
    omega
  have fits : (longMessages count).length ≤ operationLimit := by
    rw [longMessages, List.length_map, List.length_range]
    unfold operationLimit
    omega
  have found : messagesStored count [97] = some (longMessages count) := if_pos ⟨rfl, positive⟩
  rw [read_eq_validRecords (by decide) found short fits]
  refine validRecords_all 0 (longMessages_distinct (by omega)) (by simp) fun record member _ => ?_
  obtain ⟨index, -, rfl⟩ := List.mem_map.mp member
  exact longMessage_valid index

/-- A save of another of these messages. -/
theorem saving_longMessage {count : Nat} (few : count ≤ 41) :
    saving plainNumeral ⟨messagesStored count, 0, (longMessages count).reverse⟩
        (longMessage count) (fun _ => 0) true 0 =
      ⟨messagesStored (count + 1), 0, (longMessages (count + 1)).reverse⟩ := by
  have more : longMessages (count + 1) = longMessages count ++ [longMessage count] := by
    simp [longMessages, List.range_succ]
  have distinct : ((longMessages (count + 1)).map (·.requestId)).Nodup :=
    longMessages_distinct (by omega)
  have rest : others plainNumeral (messagesStored count) (longMessage count) (fun _ => 0) =
      longMessages count := by
    change (read plainNumeral (messagesStored count) [97] fun _ => 0).filter _ = _
    rw [read_messagesStored few, List.filter_eq_self]
    intro record member
    rw [more, List.map_append, List.nodup_append] at distinct
    have differs : record.requestId ≠ (longMessage count).requestId :=
      distinct.2.2 _ (List.mem_map_of_mem member) _ List.mem_cons_self
    exact decide_eq_true differs
  have room : (longMessages count).length < operationLimit := by
    rw [longMessages, List.length_map, List.length_range]
    unfold operationLimit
    omega
  have next : written plainNumeral (messagesStored count) (longMessage count) (fun _ => 0) =
      some (longMessages (count + 1)) := by
    rw [written_eq, rest, if_pos (.inl room), besides, if_pos room, more]
  have stores : save plainNumeral (messagesStored count) (longMessage count) (fun _ => 0) true =
      (messagesStored (count + 1), .ok ()) := by
    have valid : validRecord (longMessage count) (longMessage count).account 0 = true :=
      longMessage_valid count
    unfold save
    rw [next, if_pos valid]
    refine Prod.ext (funext fun account => ?_) rfl
    change (if account = [97] then _ else messagesStored count account) = _
    by_cases same : account = [97] <;> simp [messagesStored, same]
  rw [saving, stores, more, List.reverse_append]
  rfl

theorem longMessages_run {count : Nat} (few : count ≤ 42) :
    ∃ history, Run (Step plainNumeral) ⟨messagesStored 0, 0, []⟩ history
      ⟨messagesStored count, 0, (longMessages count).reverse⟩ := by
  induction count with
  | zero => exact ⟨[], .start _⟩
  | succ count inductionHypothesis =>
    obtain ⟨history, earlier⟩ := inductionHypothesis (by omega)
    have step : Step plainNumeral ⟨messagesStored count, 0, (longMessages count).reverse⟩
        (.save (longMessage count) (fun _ => 0) true 0)
        ⟨messagesStored (count + 1), 0, (longMessages (count + 1)).reverse⟩ := by
      rw [← saving_longMessage (by omega)]
      exact .save ⟨le_refl _, fun _ => le_refl _⟩ fun _ => le_refl _
    exact ⟨_, earlier.next step⟩

/-- After the save of the last message nothing is read of it or of the others. -/
theorem unresolved_operations_stay_escaped :
    ∃ first history world operation,
      first.Initial ∧ Run (Step plainNumeral) first history world ∧
        world.lastSaved operation.account operation.requestId = some operation ∧
        operation.status = .unknown ∧ operation.createdAt = some 0 ∧
        Ticks world.now (fun _ => 0) ∧
        read plainNumeral world.storage operation.account (fun _ => 0) = [] := by
  obtain ⟨history, run⟩ := longMessages_run (Nat.le_refl 42)
  refine ⟨_, history, _, longMessage 41, ⟨fun account => ?_, rfl⟩, run, ?_, rfl, rfl,
    ⟨le_refl _, fun _ => le_refl _⟩, ?_⟩
  · simp [messagesStored]
  · have last : longMessages 42 = longMessages 41 ++ [longMessage 41] := rfl
    simp only [World.lastSaved, last, List.reverse_append, List.reverse_singleton,
      List.singleton_append]
    exact List.find?_cons_of_pos (by simp)
  · have long : textLimit < (stringify plainNumeral (longMessages 42)).length := by
      have least := (length_stringify_longMessages 42).1
      unfold textLimit
      omega
    have found : messagesStored 42 [97] = some (longMessages 42) := if_pos ⟨rfl, by decide⟩
    change read plainNumeral (messagesStored 42) [97] _ = []
    rw [read, if_pos (by decide), found]
    exact if_pos long

/-- One such message is read a second after it was saved. -/
theorem unresolved_operations_stay_one :
    longMessage 0 ∈ read plainNumeral (messagesStored 1) [97] (fun _ => 1000) := by
  have step : Step plainNumeral ⟨messagesStored 0, 0, []⟩
      (.save (longMessage 0) (fun _ => 0) true 0) ⟨messagesStored 1, 0, [longMessage 0]⟩ := by
    have saved := saving_longMessage (Nat.zero_le 41)
    change saving plainNumeral ⟨messagesStored 0, 0, []⟩ _ _ _ _ =
      ⟨messagesStored 1, 0, [longMessage 0]⟩ at saved
    rw [← saved]
    exact .save ⟨le_refl _, fun _ => le_refl _⟩ fun _ => le_refl _
  have run := Run.next (.start _) step
  have begins : World.Initial ⟨messagesStored 0, 0, []⟩ := ⟨fun _ => by simp [messagesStored], rfl⟩
  have short : (stringify plainNumeral (longMessages 1)).length ≤ textLimit := by
    have most := (length_stringify_longMessages 1).2
    unfold textLimit
    omega
  have last : World.lastSaved ⟨messagesStored 1, 0, [longMessage 0]⟩ [97]
      (longMessage 0).requestId = some (longMessage 0) :=
    List.find?_cons_of_pos (decide_eq_true ⟨rfl, rfl⟩)
  refine (unresolved_operations_stay begins run).1 (fun transition member => ?_) _ _ _ _
    last (.inl rfl) ⟨by norm_num, fun _ => le_refl _⟩ fun _ createdAt known => ?_
  · obtain rfl := List.mem_singleton.mp member
    exact fun _ _ _ _ => .inl short
  · obtain rfl : (0 : Rat) = createdAt := Option.some.inj known
    norm_num [operationTtl]

end Negotiation.Client
