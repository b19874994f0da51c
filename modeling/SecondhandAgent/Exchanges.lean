/-
This file is about streams of requests and answers. An item either opens
requests, possibly none, or closes one. In an answered stream the requests of
an item are all closed before the next item opens any; such a stream falls into
exchanges, an opening item with exactly its answers. Taking exchanges out of an
answered stream leaves an answered stream.
-/

import Mathlib.Data.List.Basic
import Mathlib.Data.List.Dedup
import Mathlib.Data.List.Perm.Basic

namespace Store

/-- What an item of a stream does. -/
inductive Action (Id : Type) where
  | opens (ids : List Id)
  | closes (id : Id)

variable {Item Id : Type} [DecidableEq Id] (action : Item → Action Id)

/-! ### Streams -/

/-- While requests are pending only their answers follow, and none is pending at the end; the
requests of an item are distinct. -/
def Answered : List Id → List Item → Prop
  | pending, [] => pending = []
  | pending, item :: rest =>
    match action item with
    | .opens ids => pending = [] ∧ ids.Nodup ∧ Answered ids rest
    | .closes id => id ∈ pending ∧ Answered (pending.erase id) rest

/-- The items close the pending requests and do nothing else. -/
def Closing : List Id → List Item → Prop
  | pending, [] => pending = []
  | pending, item :: rest => ∃ id, action item = .closes id ∧ id ∈ pending ∧
      Closing (pending.erase id) rest

/-- An opening item and exactly its answers. -/
def Exchange : List Item → Prop
  | [] => False
  | item :: rest => ∃ ids, action item = .opens ids ∧ ids.Nodup ∧ Closing action ids rest

/-- The groups of a stream and the set of requests that are pending after it: an item begins a
group if nothing is pending. -/
def groupStep (state : List (List Item) × List Id) (item : Item) : List (List Item) × List Id :=
  let groups := if state.2 = [] then state.1 ++ [[]] else state.1
  (groups.dropLast ++ [groups.getLastD [] ++ [item]],
    match action item with
    | .opens ids => (state.2 ++ ids).dedup
    | .closes id => state.2.erase id)

def groupsOf (items : List Item) : List (List Item) :=
  (items.foldl (groupStep action) ([], [])).1

variable {action}

/-! ### Exchanges -/

theorem Exchange.ne_nil {group : List Item} (exchange : Exchange action group) : group ≠ [] := by
  rintro rfl
  exact exchange

/-- The answers of an exchange are its requests, in some order. -/
theorem Closing.perm {pending : List Id} {items : List Item} (closing : Closing action pending items) :
    ∃ ids : List Id, ids.Perm pending ∧ items.map action = ids.map Action.closes := by
  induction items generalizing pending with
  | nil => exact ⟨[], by rw [show pending = [] from closing], rfl⟩
  | cons item rest inductionHypothesis =>
    obtain ⟨id, closes, member, others⟩ := closing
    obtain ⟨ids, same, answers⟩ := inductionHypothesis others
    refine ⟨id :: ids, ((List.Perm.cons id same).trans (List.perm_cons_erase member).symm), ?_⟩
    rw [List.map_cons, List.map_cons, closes, answers]

/-- An answered stream is the answers that are pending and then exchanges. -/
theorem Answered.exists_groups {pending : List Id} {items : List Item}
    (answered : Answered action pending items) :
    ∃ (answers : List Item) (groups : List (List Item)), items = answers ++ groups.flatten ∧
      Closing action pending answers ∧ ∀ group ∈ groups, Exchange action group := by
  induction items generalizing pending with
  | nil => exact ⟨[], [], rfl, answered, fun group member => absurd member List.not_mem_nil⟩
  | cons item rest inductionHypothesis =>
    unfold Answered at answered
    split at answered
    case h_1 ids opens =>
      obtain ⟨rfl, distinct, later⟩ := answered
      obtain ⟨answers, groups, rfl, closing, exchanges⟩ := inductionHypothesis later
      exact ⟨[], (item :: answers) :: groups, rfl, rfl,
        List.forall_mem_cons.mpr ⟨⟨ids, opens, distinct, closing⟩, exchanges⟩⟩
    case h_2 id closes =>
      obtain ⟨member, later⟩ := answered
      obtain ⟨answers, groups, rfl, closing, exchanges⟩ := inductionHypothesis later
      exact ⟨item :: answers, groups, rfl, ⟨id, closes, member, closing⟩, exchanges⟩

theorem Closing.append {pending : List Id} {answers rest : List Item}
    (closing : Closing action pending answers) (answered : Answered action [] rest) :
    Answered action pending (answers ++ rest) := by
  induction answers generalizing pending with
  | nil =>
    rw [show pending = [] from closing]
    exact answered
  | cons item others inductionHypothesis =>
    obtain ⟨id, closes, member, later⟩ := closing
    unfold Answered
    rw [List.cons_append]
    simp only [closes]
    exact ⟨member, inductionHypothesis later⟩

theorem Exchange.append {group rest : List Item} (exchange : Exchange action group)
    (answered : Answered action [] rest) : Answered action [] (group ++ rest) := by
  cases group with
  | nil => exact absurd exchange id
  | cons item answers =>
    obtain ⟨ids, opens, distinct, closing⟩ := exchange
    unfold Answered
    rw [List.cons_append]
    simp only [opens]
    exact ⟨trivial, distinct, closing.append answered⟩

/-- Exchanges one after the other are answered. -/
theorem answered_flatten {groups : List (List Item)}
    (exchanges : ∀ group ∈ groups, Exchange action group) : Answered action [] groups.flatten := by
  induction groups with
  | nil => rfl
  | cons group rest inductionHypothesis =>
    rw [List.forall_mem_cons] at exchanges
    exact exchanges.1.append (inductionHypothesis exchanges.2)

theorem answered_iff (items : List Item) :
    Answered action [] items ↔
      ∃ groups : List (List Item), items = groups.flatten ∧
        ∀ group ∈ groups, Exchange action group := by
  constructor
  · intro answered
    obtain ⟨answers, groups, rfl, closing, exchanges⟩ := answered.exists_groups
    cases answers with
    | nil => exact ⟨groups, rfl, exchanges⟩
    | cons item rest =>
      obtain ⟨id, _, member, _⟩ := closing
      exact absurd member List.not_mem_nil
  · rintro ⟨groups, rfl, exchanges⟩
    exact answered_flatten exchanges

theorem Closing.of_append {pending : List Id} {answers rest : List Item}
    (closing : Closing action pending answers) (answered : Answered action pending (answers ++ rest)) :
    Answered action [] rest := by
  induction answers generalizing pending with
  | nil => rwa [show pending = [] from closing] at answered
  | cons item others inductionHypothesis =>
    obtain ⟨id, closes, _, later⟩ := closing
    unfold Answered at answered
    rw [List.cons_append] at answered
    simp only [closes] at answered
    exact inductionHypothesis later answered.2

/-- What follows an answered stream is answered if the whole is. -/
theorem Answered.of_append {before rest : List Item} (first : Answered action [] before)
    (whole : Answered action [] (before ++ rest)) : Answered action [] rest := by
  obtain ⟨groups, rfl, exchanges⟩ := (answered_iff before).mp first
  clear first
  induction groups with
  | nil => exact whole
  | cons group others inductionHypothesis =>
    rw [List.forall_mem_cons] at exchanges
    refine inductionHypothesis exchanges.2 ?_
    cases group with
    | nil => exact absurd exchanges.1 id
    | cons item answers =>
      obtain ⟨ids, opens, _, closing⟩ := exchanges.1
      unfold Answered at whole
      rw [List.flatten_cons, List.append_assoc, List.cons_append] at whole
      simp only [opens] at whole
      exact closing.of_append whole.2.2

/-! ### Grouping finds the exchanges -/

theorem foldl_groupStep_closing {pending : List Id} {answers : List Item}
    (closing : Closing action pending answers) (before : List (List Item)) (group : List Item) :
    answers.foldl (groupStep action) (before ++ [group], pending) =
      (before ++ [group ++ answers], []) := by
  induction answers generalizing pending group with
  | nil =>
    rw [show pending = [] from closing, List.append_nil]
    rfl
  | cons item rest inductionHypothesis =>
    obtain ⟨id, closes, member, later⟩ := closing
    have some : pending ≠ [] := List.ne_nil_of_mem member
    rw [List.foldl_cons, groupStep]
    simp only [closes, if_neg some, List.dropLast_concat, List.getLastD_concat]
    rw [inductionHypothesis later, List.append_assoc, List.singleton_append]

theorem foldl_groupStep_exchange {group : List Item} (exchange : Exchange action group)
    (before : List (List Item)) :
    group.foldl (groupStep action) (before, []) = (before ++ [group], []) := by
  cases group with
  | nil => exact absurd exchange id
  | cons item answers =>
    obtain ⟨ids, opens, distinct, closing⟩ := exchange
    rw [List.foldl_cons, groupStep]
    simp only [opens, if_pos, List.dropLast_concat, List.getLastD_concat, List.nil_append,
      distinct.dedup]
    rw [foldl_groupStep_closing closing, List.singleton_append]

theorem foldl_groupStep_flatten {groups : List (List Item)}
    (exchanges : ∀ group ∈ groups, Exchange action group) (before : List (List Item)) :
    groups.flatten.foldl (groupStep action) (before, []) = (before ++ groups, []) := by
  induction groups generalizing before with
  | nil => rw [List.append_nil]; rfl
  | cons group rest inductionHypothesis =>
    rw [List.forall_mem_cons] at exchanges
    rw [List.flatten_cons, List.foldl_append, foldl_groupStep_exchange exchanges.1,
      inductionHypothesis exchanges.2, List.append_assoc, List.singleton_append]

/-- The groups of exchanges one after the other are these exchanges. -/
theorem groupsOf_flatten {groups : List (List Item)}
    (exchanges : ∀ group ∈ groups, Exchange action group) :
    groupsOf action groups.flatten = groups := by
  unfold groupsOf
  rw [foldl_groupStep_flatten exchanges]
  rfl

/-- An answered stream is its groups, and these are exchanges. -/
theorem Answered.groups {items : List Item} (answered : Answered action [] items) :
    (groupsOf action items).flatten = items ∧
      ∀ group ∈ groupsOf action items, Exchange action group := by
  obtain ⟨groups, rfl, exchanges⟩ := (answered_iff items).mp answered
  rw [groupsOf_flatten exchanges]
  exact ⟨rfl, exchanges⟩

/-! ### Groups of any stream -/

theorem groupStep_fst (state : List (List Item) × List Id) (item : Item) :
    (groupStep action state item).1 =
      if state.2 = [] then state.1 ++ [[item]]
      else state.1.dropLast ++ [state.1.getLastD [] ++ [item]] := by
  unfold groupStep
  split
  · simp
  · rfl

theorem foldl_groupStep (items : List Item) (state : List (List Item) × List Id)
    (begun : state.1 = [] → state.2 = []) (some : ∀ group ∈ state.1, group ≠ []) :
    (items.foldl (groupStep action) state).1.flatten = state.1.flatten ++ items ∧
      ∀ group ∈ (items.foldl (groupStep action) state).1, group ≠ [] := by
  induction items generalizing state with
  | nil => exact ⟨(List.append_nil _).symm, some⟩
  | cons item rest inductionHypothesis =>
    have grown : (groupStep action state item).1.flatten = state.1.flatten ++ [item] ∧
        (groupStep action state item).1 ≠ [] ∧
        ∀ group ∈ (groupStep action state item).1, group ≠ [] := by
      rw [groupStep_fst]
      split
      case isTrue => exact ⟨by simp, by simp, List.forall_mem_append.mpr ⟨some, by simp⟩⟩
      case isFalse pending =>
        obtain ⟨before, last, same⟩ : ∃ before last, state.1 = before ++ [last] :=
          ⟨_, _, (List.dropLast_append_getLast fun empty => pending (begun empty)).symm⟩
        rw [same] at some
        rw [same, List.dropLast_concat, List.getLastD_concat]
        exact ⟨by simp, by simp, List.forall_mem_append.mpr
          ⟨(List.forall_mem_append.mp some).1, by simp⟩⟩
    obtain ⟨flat, nonempty, each⟩ := grown
    obtain ⟨whole, all⟩ := inductionHypothesis _ (fun empty => absurd empty nonempty) each
    rw [List.foldl_cons, whole, flat, List.append_assoc, List.singleton_append]
    exact ⟨rfl, all⟩

variable (action) in
/-- Whatever the stream is, its groups are not empty and make it up. -/
theorem flatten_groupsOf (items : List Item) :
    (groupsOf action items).flatten = items ∧ ∀ group ∈ groupsOf action items, group ≠ [] :=
  foldl_groupStep items ([], []) (fun _ => rfl) fun _ member => absurd member List.not_mem_nil

/-- What is kept of exchanges, if each is kept or left out as a whole. -/
theorem filter_flatten (groups : List (List Item)) (keep : Item → Bool)
    (whole : ∀ group ∈ groups, (∀ item ∈ group, keep item = true) ∨ ∀ item ∈ group, keep item = false) :
    groups.flatten.filter keep = (groups.filter fun group => group.all keep).flatten := by
  induction groups with
  | nil => rfl
  | cons group rest inductionHypothesis =>
    rw [List.forall_mem_cons] at whole
    rw [List.flatten_cons, List.filter_append, inductionHypothesis whole.2, List.filter_cons]
    rcases whole.1 with kept | dropped
    · rw [List.filter_eq_self.mpr kept, if_pos (List.all_eq_true.mpr kept), List.flatten_cons]
    · have none : group.filter keep = [] :=
        List.filter_eq_nil_iff.mpr fun item member => by simp [dropped item member]
      rw [none, List.nil_append]
      cases group with
      | nil => rfl
      | cons item others =>
        rw [List.all_cons, dropped item List.mem_cons_self]
        rfl

/-- The action may be taken of what the items stand for. -/
theorem answered_map {Other : Type} (change : Other → Item) (pending : List Id)
    (items : List Other) :
    Answered action pending (items.map change) ↔ Answered (action ∘ change) pending items := by
  induction items generalizing pending with
  | nil => rfl
  | cons item rest inductionHypothesis =>
    simp only [List.map_cons, Answered, Function.comp_apply, inductionHypothesis]

end Store
