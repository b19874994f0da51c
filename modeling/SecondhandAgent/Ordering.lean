/-
This file proves what the order of the intents of a frame is. The visit puts
every key behind the keys it depends on and none of them twice, so that a frame
that is valid for its text comes out as the same intents in another order, in
which each one follows everything it depends on.
-/

import SecondhandAgent.Intents

namespace Negotiation

open Store

/-- What is found by a key has that key. -/
theorem id_of_find {intents : List Intent} {key : String} {intent : Intent}
    (found : (intents.find? fun intent => intent.id = key) = some intent) : intent.id = key := by
  have same := List.find?_some found
  exact of_decide_eq_true same

/-- Keys of which each is new, known, and behind everything its intent depends on. -/
inductive Arranged (intents : List Intent) : List String → Prop
  | nil : Arranged intents []
  | snoc {keys : List String} {key : String} {intent : Intent} (earlier : Arranged intents keys)
      (known : (intents.find? fun intent => intent.id = key) = some intent) (fresh : key ∉ keys)
      (behind : ∀ parent ∈ intent.dependsOn, parent ∈ keys) : Arranged intents (keys ++ [key])

namespace Arranged

variable {intents : List Intent} {keys : List String}

theorem nodup (arranged : Arranged intents keys) : keys.Nodup := by
  induction arranged with
  | nil => exact List.nodup_nil
  | snoc _ _ fresh _ inductionHypothesis =>
    exact inductionHypothesis.append (List.nodup_singleton _)
      (List.disjoint_singleton.mpr fresh)

theorem known (arranged : Arranged intents keys) :
    ∀ key ∈ keys, ∃ intent, (intents.find? fun intent => intent.id = key) = some intent := by
  induction arranged with
  | nil => exact fun _ member => absurd member List.not_mem_nil
  | snoc _ known _ _ inductionHypothesis =>
    intro key member
    rcases List.mem_append.mp member with old | new
    · exact inductionHypothesis key old
    · rw [List.mem_singleton.mp new]
      exact ⟨_, known⟩

end Arranged

/-! ### The visit -/

/-- What a visit makes of the keys that are arranged already: it adds keys that are not on its
way. -/
structure Visited (intents : List Intent) (visiting ordered after : List String) : Prop where
  arranged : Arranged intents after
  kept : ∀ key ∈ ordered, key ∈ after
  avoids : ∀ key ∈ after, key ∈ ordered ∨ key ∉ visiting

theorem Visited.trans {intents : List Intent} {visiting one two three : List String}
    (first : Visited intents visiting one two) (second : Visited intents visiting two three) :
    Visited intents visiting one three where
  arranged := second.arranged
  kept key member := second.kept key (first.kept key member)
  avoids key member := by
    rcases second.avoids key member with old | free
    · exact first.avoids key old
    · exact .inr free

/-- Visit after visit arranges all the keys. -/
theorem foldlM_visited {intents : List Intent} {visiting : List String}
    {step : List String → String → Except Failure (List String)}
    (each : ∀ ordered key after, Arranged intents ordered → step ordered key = .ok after →
      Visited intents visiting ordered after ∧ key ∈ after)
    {keys ordered after : List String} (arranged : Arranged intents ordered)
    (done : keys.foldlM step ordered = .ok after) :
    Visited intents visiting ordered after ∧ ∀ key ∈ keys, key ∈ after := by
  induction keys generalizing ordered with
  | nil =>
    obtain rfl := (pure_eq_ok _ _).mp done
    exact ⟨⟨arranged, fun _ member => member, fun _ member => .inl member⟩,
      fun _ member => absurd member List.not_mem_nil⟩
  | cons key rest inductionHypothesis =>
    rw [List.foldlM_cons, bind_eq_ok] at done
    obtain ⟨middle, first, others⟩ := done
    obtain ⟨visited, present⟩ := each _ _ _ arranged first
    obtain ⟨later, all⟩ := inductionHypothesis visited.arranged others
    refine ⟨visited.trans later, fun other member => ?_⟩
    rcases List.mem_cons.mp member with rfl | among
    · exact later.kept _ present
    · exact all other among

theorem visit_visited {intents : List Intent} (depth : Nat) {visiting ordered after : List String}
    {key : String} (arranged : Arranged intents ordered)
    (done : visit intents depth visiting ordered key = .ok after) :
    Visited intents visiting ordered after ∧ key ∈ after := by
  induction depth generalizing visiting ordered after key with
  | zero => cases done
  | succ depth inductionHypothesis =>
    unfold visit at done
    split at done
    · cases done
    · next intent known =>
      split_ifs at done with cyclic old
      · obtain rfl := Except.ok.inj done
        exact ⟨⟨arranged, fun _ member => member, fun _ member => .inl member⟩, old⟩
      · simp only [bind_eq_ok, pure_eq_ok] at done
        obtain ⟨before, parents, rfl⟩ := done
        obtain ⟨visited, behind⟩ := foldlM_visited
          (fun _ _ _ arranged step => inductionHypothesis arranged step) arranged parents
        -- The key is on the way of the visits below, so that none of them puts it.
        have fresh : key ∉ before := by
          intro member
          rcases visited.avoids key member with twice | free
          · exact old twice
          · exact free List.mem_cons_self
        refine ⟨⟨.snoc visited.arranged known fresh behind, fun other member => ?_,
          fun other member => ?_⟩, List.mem_append_right _ (List.mem_singleton_self key)⟩
        · exact List.mem_append_left _ (visited.kept other member)
        · rcases List.mem_append.mp member with earlier | new
          · exact (visited.avoids other earlier).imp id fun free among =>
              free (List.mem_cons_of_mem key among)
          · rw [List.mem_singleton.mp new]
            exact .inr cyclic

/-! ### The order of a frame -/

/-- An intent is found by its key where the keys are unique. -/
theorem find_intent {intents : List Intent} (unique : (intents.map (·.id)).Nodup)
    {intent : Intent} (member : intent ∈ intents) :
    (intents.find? fun other => other.id = intent.id) = some intent := by
  cases found : intents.find? fun other => other.id = intent.id with
  | none =>
    have absent := List.find?_eq_none.mp found intent member
    exact absurd (decide_eq_true rfl) absent
  | some other =>
    exact congrArg some (List.inj_on_of_nodup_map unique (List.mem_of_find?_eq_some found) member
      (id_of_find found))

theorem filterMap_find {intents : List Intent} (unique : (intents.map (·.id)).Nodup) :
    ((intents.map (·.id)).filterMap fun key => intents.find? fun intent => intent.id = key) =
      intents := by
  rw [List.filterMap_map]
  calc
    intents.filterMap _ = intents.filterMap some :=
      List.filterMap_congr fun intent member => find_intent unique member
    _ = intents := List.filterMap_some

variable {frame : IntentFrame} {text : String} {ordered : List Intent}

/-- The keys of a valid frame as the visits leave them. -/
theorem validatedFor_arranged (valid : frame.validatedFor text = .ok ordered) :
    (frame.intents.map (·.id)).Nodup ∧ ∃ keys, Arranged frame.intents keys ∧
      (∀ intent ∈ frame.intents, intent.id ∈ keys) ∧
      ordered = keys.filterMap fun key => frame.intents.find? fun intent => intent.id = key := by
  unfold IntentFrame.validatedFor at valid
  simp only [bind_eq_ok, pure_eq_ok, require_eq_ok] at valid
  obtain ⟨_, unique, _, _, keys, visits, rfl⟩ := valid
  obtain ⟨visited, all⟩ := foldlM_visited
    (fun _ _ _ arranged step => visit_visited 5 arranged step) .nil visits
  exact ⟨unique, keys, visited.arranged, fun intent member => all _ (List.mem_map_of_mem member),
    rfl⟩

/-- A frame comes out as its own intents in another order. -/
theorem validatedFor_perm (valid : frame.validatedFor text = .ok ordered) :
    ordered.Perm frame.intents := by
  obtain ⟨unique, keys, arranged, all, rfl⟩ := validatedFor_arranged valid
  have same : keys.Perm (frame.intents.map (·.id)) := by
    refine (List.perm_ext_iff_of_nodup arranged.nodup unique).mpr fun key => ⟨fun member => ?_,
      fun member => ?_⟩
    · obtain ⟨intent, found⟩ := arranged.known key member
      exact id_of_find found ▸ List.mem_map_of_mem (List.mem_of_find?_eq_some found)
    · obtain ⟨intent, listed, rfl⟩ := List.mem_map.mp member
      exact all intent listed
  have perm := same.filterMap fun key => frame.intents.find? fun intent => intent.id = key
  rwa [filterMap_find unique] at perm

theorem Arranged.behind {intents : List Intent} {keys : List String}
    (arranged : Arranged intents keys) {before after : List Intent} {intent : Intent}
    (split : (keys.filterMap fun key => intents.find? fun intent => intent.id = key) =
      before ++ intent :: after) :
    ∀ parent ∈ intent.dependsOn, ∃ earlier ∈ before, earlier.id = parent := by
  induction arranged generalizing after with
  | nil => exact absurd split.symm (List.append_ne_nil_of_right_ne_nil _ (List.cons_ne_nil _ _))
  | @snoc keys key last earlier known fresh behind inductionHypothesis =>
    have alone : ([key].filterMap fun key => intents.find? fun intent => intent.id = key) =
        [last] := by
      simp only [List.filterMap_cons, List.filterMap_nil, known]
    rw [List.filterMap_append, alone] at split
    rcases List.eq_nil_or_concat after with rfl | ⟨rest, other, rfl⟩
    · obtain ⟨rfl, same⟩ := List.append_inj' split rfl
      obtain rfl : last = intent := (List.cons.inj same).1
      intro parent member
      obtain ⟨found, listed⟩ := earlier.known parent (behind parent member)
      exact ⟨found, List.mem_filterMap.mpr ⟨parent, behind parent member, listed⟩,
        id_of_find listed⟩
    · rw [List.concat_eq_append, ← List.cons_append, ← List.append_assoc] at split
      exact inductionHypothesis (List.append_inj' split rfl).1

/-- Each intent follows everything it depends on. -/
theorem validatedFor_behind (valid : frame.validatedFor text = .ok ordered)
    {before after : List Intent} {intent : Intent} (split : ordered = before ++ intent :: after) :
    ∀ parent ∈ intent.dependsOn, ∃ earlier ∈ before, earlier.id = parent := by
  obtain ⟨_, keys, arranged, _, rfl⟩ := validatedFor_arranged valid
  exact arranged.behind split

end Negotiation
