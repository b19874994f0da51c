/-
This file settles for which frames the order in which the parser lists the
intents matters. The visits bound how deep they go, not how long a chain of
dependencies is: an intent that is arranged already is not followed again. So a
chain that is too long is refused when its end is listed first, and passes when
its start is.
-/

import SecondhandAgent.Acyclic
import SecondhandAgent.Ordering

namespace Negotiation

open Store Relation

/-! ### Dependencies -/

/-- The intent with the first key depends on the second key. -/
def DependsOn (intents : List Intent) (key parent : String) : Prop :=
  ∃ intent ∈ intents, intent.id = key ∧ parent ∈ intent.dependsOn

/-- Keys of which each depends on the next one. -/
def Chain (intents : List Intent) (keys : List String) : Prop :=
  List.IsChain (DependsOn intents) keys

/-- The ids are distinct, the dependencies exist and do not run in a circle. -/
structure Orderly (intents : List Intent) : Prop where
  unique : (intents.map (·.id)).Nodup
  known : ∀ intent ∈ intents, ∀ parent ∈ intent.dependsOn, parent ∈ intents.map (·.id)
  acyclic : Acyclic (DependsOn intents)

/-- No chain of dependencies has more than four edges. -/
def Shallow (intents : List Intent) : Prop := ∀ keys, Chain intents keys → keys.length ≤ 5

/-- What the validation of a frame that is grounded in its text is to accept. -/
def Listable (intents : List Intent) : Prop := Orderly intents ∧ Shallow intents

/-- The frame is accepted just when it is listable, and comes out as its own intents with each
behind everything it depends on. -/
def IntentFrame.Meets (frame : IntentFrame) (source : String) : Prop :=
  ((∃ ordered, frame.validatedFor source = .ok ordered) ↔ Listable frame.intents) ∧
    ∀ ordered, frame.validatedFor source = .ok ordered → ordered.Perm frame.intents ∧
      ∀ before intent after, ordered = before ++ intent :: after →
        ∀ parent ∈ intent.dependsOn, ∃ earlier ∈ before, earlier.id = parent

section

variable {intents listed : List Intent}

theorem DependsOn.of_perm (perm : listed.Perm intents) {key parent : String}
    (depends : DependsOn listed key parent) : DependsOn intents key parent := by
  obtain ⟨intent, member, named, among⟩ := depends
  exact ⟨intent, perm.mem_iff.mp member, named, among⟩

theorem dependsOn_perm (perm : listed.Perm intents) : DependsOn listed = DependsOn intents := by
  funext key parent
  exact propext ⟨DependsOn.of_perm perm, DependsOn.of_perm perm.symm⟩

theorem Orderly.of_perm (perm : listed.Perm intents) (orderly : Orderly intents) :
    Orderly listed where
  unique := (perm.map _).nodup_iff.mpr orderly.unique
  known intent member parent among :=
    (perm.map _).mem_iff.mpr (orderly.known intent (perm.mem_iff.mp member) parent among)
  acyclic := by
    rw [dependsOn_perm perm]
    exact orderly.acyclic

theorem Shallow.of_perm (perm : listed.Perm intents) (shallow : Shallow intents) :
    Shallow listed := by
  unfold Shallow Chain
  rw [dependsOn_perm perm]
  exact shallow

end

/-! ### Frames that are accepted -/

section

variable {frame : IntentFrame} {source : String} {ordered : List Intent}

/-- Keys that are arranged depend on nothing that stands behind them. -/
theorem Arranged.acyclic {intents : List Intent} {keys : List String}
    (unique : (intents.map (·.id)).Nodup) (arranged : Arranged intents keys) :
    ∀ key ∈ keys, ∀ parent, TransGen (DependsOn intents) key parent →
      parent ∈ keys ∧ parent ≠ key := by
  induction arranged with
  | nil => exact fun _ member => absurd member List.not_mem_nil
  | @snoc keys last intent earlier known fresh behind inductionHypothesis =>
    -- what the last key depends on stands before it, and what stands there stays there
    have direct : ∀ parent, DependsOn intents last parent → parent ∈ keys := by
      rintro parent ⟨other, member, named, among⟩
      have found := find_intent unique member
      rw [named, known] at found
      cases found
      exact behind parent among
    have within : ∀ key ∈ keys, ∀ parent, TransGen (DependsOn intents) key parent →
        parent ∈ keys := fun key member parent path => (inductionHypothesis key member parent path).1
    intro key member parent path
    rcases List.mem_append.mp member with old | new
    · obtain ⟨here, different⟩ := inductionHypothesis key old parent path
      exact ⟨List.mem_append_left _ here, different⟩
    · obtain rfl := List.mem_singleton.mp new
      have here : parent ∈ keys := by
        obtain ⟨next, first, rest⟩ := TransGen.head'_iff.mp path
        rcases ReflTransGen.cases_head rest with rfl | ⟨later, step, more⟩
        · exact direct _ first
        · exact within next (direct next first) parent (TransGen.head' step more)
      exact ⟨List.mem_append_left _ here, fun same => fresh (same ▸ here)⟩

/-- A frame that is accepted is orderly. -/
theorem validatedFor_orderly (valid : frame.validatedFor source = .ok ordered) :
    Orderly frame.intents := by
  obtain ⟨unique, keys, arranged, all, rfl⟩ := validatedFor_arranged valid
  have listed : ∀ key ∈ keys, key ∈ frame.intents.map (·.id) := by
    intro key member
    obtain ⟨intent, found⟩ := arranged.known key member
    exact id_of_find found ▸ List.mem_map_of_mem (List.mem_of_find?_eq_some found)
  have starts : ∀ {key parent}, DependsOn frame.intents key parent → key ∈ keys := by
    rintro key parent ⟨intent, member, rfl, -⟩
    exact all intent member
  refine ⟨unique, fun intent member parent among => ?_, fun key circle => ?_⟩
  · have path : TransGen (DependsOn frame.intents) intent.id parent :=
      .single ⟨intent, member, rfl, among⟩
    exact listed parent (arranged.acyclic unique _ (all intent member) _ path).1
  · obtain ⟨next, first, -⟩ := TransGen.head'_iff.mp circle
    exact (arranged.acyclic unique key (starts first) key circle).2 rfl

end

/-! ### Frames that are refused -/

section

variable {intents : List Intent} {visiting ordered : List String} {key : String} {depth : Nat}

theorem exists_intent (listed : key ∈ intents.map (·.id)) :
    ∃ intent ∈ intents, intent.id = key := List.mem_map.mp listed

/-- A fold succeeds if each of its steps does. -/
theorem foldlM_ok {step : List String → String → Except Failure (List String)} {keys : List String}
    (each : ∀ key ∈ keys, ∀ ordered, ∃ after, step ordered key = .ok after)
    (ordered : List String) : ∃ after, keys.foldlM step ordered = .ok after := by
  induction keys generalizing ordered with
  | nil => exact ⟨ordered, rfl⟩
  | cons key rest inductionHypothesis =>
    obtain ⟨middle, first⟩ := each key List.mem_cons_self ordered
    obtain ⟨after, others⟩ :=
      inductionHypothesis (fun key member => each key (List.mem_cons_of_mem _ member)) middle
    exact ⟨after, by rw [List.foldlM_cons, bind_eq_ok]; exact ⟨middle, first, others⟩⟩

/-- A visit that may go as deep as the chains from its key are long comes back. -/
theorem visit_ok (orderly : Orderly intents) (listed : key ∈ intents.map (·.id))
    (way : ∀ other ∈ visiting, TransGen (DependsOn intents) other key)
    (short : ∀ keys, Chain intents (key :: keys) → (key :: keys).length ≤ depth)
    (ordered : List String) : ∃ after, visit intents depth visiting ordered key = .ok after := by
  induction depth generalizing key visiting ordered with
  | zero => exact absurd (short [] (List.isChain_singleton key)) nofun
  | succ depth inductionHypothesis =>
    obtain ⟨intent, member, rfl⟩ := exists_intent listed
    unfold visit
    rw [find_intent orderly.unique member]
    dsimp only
    have off : intent.id ∉ visiting := fun among => orderly.acyclic _ (way _ among)
    rw [if_neg off]
    split
    · exact ⟨ordered, rfl⟩
    · have below : ∀ parent ∈ intent.dependsOn, ∀ ordered,
          ∃ after, visit intents depth (intent.id :: visiting) ordered parent = .ok after := by
        intro parent among ordered
        have edge : DependsOn intents intent.id parent := ⟨intent, member, rfl, among⟩
        refine inductionHypothesis (orderly.known intent member parent among) ?_ ?_ ordered
        · intro other onWay
          rcases List.mem_cons.mp onWay with rfl | earlier
          · exact .single edge
          · exact (way other earlier).tail edge
        · intro keys chain
          have longer := short (parent :: keys) (List.isChain_cons_cons.mpr ⟨edge, chain⟩)
          exact Nat.le_of_succ_le_succ longer
      obtain ⟨before, done⟩ := foldlM_ok below ordered
      exact ⟨before ++ [intent.id], by rw [done]; rfl⟩

/-- A visit of what is arranged already changes nothing. -/
theorem visit_arranged (unique : (intents.map (·.id)).Nodup) (listed : key ∈ intents.map (·.id))
    (off : key ∉ visiting) (old : key ∈ ordered) :
    visit intents (depth + 1) visiting ordered key = .ok ordered := by
  obtain ⟨intent, member, rfl⟩ := exists_intent listed
  unfold visit
  rw [find_intent unique member]
  dsimp only
  rw [if_neg off, if_pos old]

theorem foldlM_arranged (unique : (intents.map (·.id)).Nodup) {keys : List String}
    (listed : ∀ key ∈ keys, key ∈ intents.map (·.id)) (off : ∀ key ∈ keys, key ∉ visiting)
    (old : ∀ key ∈ keys, key ∈ ordered) :
    keys.foldlM (visit intents (depth + 1) visiting) ordered = .ok ordered := by
  induction keys with
  | nil => rfl
  | cons key rest inductionHypothesis =>
    rw [List.foldlM_cons, visit_arranged unique (listed key List.mem_cons_self)
      (off key List.mem_cons_self) (old key List.mem_cons_self)]
    exact inductionHypothesis (fun key member => listed key (List.mem_cons_of_mem _ member))
      (fun key member => off key (List.mem_cons_of_mem _ member))
      fun key member => old key (List.mem_cons_of_mem _ member)

/-- Where each intent is listed behind what it depends on, no visit goes deep. -/
theorem foldlM_layered (unique : (intents.map (·.id)).Nodup)
    (behind : ∀ before intent after, intents = before ++ intent :: after →
      ∀ parent ∈ intent.dependsOn, parent ∈ before.map (·.id)) (before rest : List Intent)
    (split : intents = before ++ rest) :
    (rest.map (·.id)).foldlM (visit intents 5 []) (before.map (·.id)) =
      .ok (intents.map (·.id)) := by
  induction rest generalizing before with
  | nil => rw [split, List.append_nil]; rfl
  | cons intent rest inductionHypothesis =>
    have member : intent ∈ intents := split ▸ List.mem_append_right _ List.mem_cons_self
    have fresh : intent.id ∉ before.map (·.id) := by
      rw [split, List.map_append, List.map_cons] at unique
      exact fun twice => (List.disjoint_of_nodup_append unique) twice List.mem_cons_self
    have parents := behind before intent rest split
    have first : visit intents 5 [] (before.map (·.id)) intent.id =
        .ok (before.map (·.id) ++ [intent.id]) := by
      unfold visit
      rw [find_intent unique member]
      dsimp only
      rw [if_neg List.not_mem_nil, if_neg fresh, foldlM_arranged unique ?_ ?_ parents]
      · rfl
      · intro parent among
        rw [split, List.map_append]
        exact List.mem_append_left _ (parents parent among)
      · intro parent among itself
        obtain rfl := List.mem_singleton.mp itself
        exact fresh (parents _ among)
    rw [List.map_cons, List.foldlM_cons, first]
    have next := inductionHypothesis (before ++ [intent]) (by rw [split, List.append_assoc]; rfl)
    rw [List.map_append] at next
    exact next

end

/-! ### The order of the listing -/

section

variable {frame : IntentFrame} {source : String}

/-- The intents of some keys have just these keys. -/
theorem listed_ids {intents : List Intent} (unique : (intents.map (·.id)).Nodup)
    {keys : List String} (listed : ∀ key ∈ keys, key ∈ intents.map (·.id)) :
    ((keys.filterMap fun key => intents.find? fun intent => intent.id = key).map (·.id)) = keys := by
  rw [List.map_filterMap]
  calc
    keys.filterMap _ = keys.filterMap some := List.filterMap_congr fun key member => by
      obtain ⟨intent, here, rfl⟩ := exists_intent (listed key member)
      rw [find_intent unique here]
      rfl
    _ = keys := List.filterMap_some

theorem validatedFor_ok (unique : (frame.intents.map (·.id)).Nodup)
    (grounded : (frame.intents.all fun intent => intent.grounded source) = true)
    {keys : List String}
    (visits : (frame.intents.map (·.id)).foldlM (visit frame.intents 5 []) [] = .ok keys) :
    ∃ ordered, frame.validatedFor source = .ok ordered := by
  unfold IntentFrame.validatedFor
  refine ⟨keys.filterMap fun key => frame.intents.find? fun intent => intent.id = key, ?_⟩
  simp only [bind_eq_ok, require_eq_ok, pure_eq_ok]
  exact ⟨(), unique, (), grounded, keys, visits, rfl⟩

/-- A frame that is sound is accepted however it is listed. -/
theorem validatedFor_of_listable
    (grounded : (frame.intents.all fun intent => intent.grounded source) = true)
    (listable : Listable frame.intents) : ∃ ordered, frame.validatedFor source = .ok ordered := by
  obtain ⟨orderly, shallow⟩ := listable
  have each : ∀ key ∈ frame.intents.map (·.id), ∀ ordered,
      ∃ after, visit frame.intents 5 [] ordered key = .ok after := fun key listed ordered =>
    visit_ok orderly listed (fun _ among => absurd among List.not_mem_nil)
      (fun keys chain => shallow (key :: keys) chain) ordered
  obtain ⟨keys, visits⟩ := foldlM_ok each []
  exact validatedFor_ok orderly.unique grounded visits

/-- A frame that is orderly is accepted in some listing, however long its chains are. -/
theorem exists_listing_accepted (orderly : Orderly frame.intents)
    (grounded : (frame.intents.all fun intent => intent.grounded source) = true) :
    ∃ listing : IntentFrame, listing.intents.Perm frame.intents ∧
      ∃ ordered, listing.validatedFor source = .ok ordered := by
  have closed : ∀ key ∈ frame.intents.map (·.id), ∀ parent, DependsOn frame.intents key parent →
      parent ∈ frame.intents.map (·.id) := by
    rintro _ - parent ⟨intent, member, rfl, among⟩
    exact orderly.known intent member parent among
  obtain ⟨keys, keysPerm, layered⟩ := orderly.acyclic.exists_layered closed
  let listed := keys.filterMap fun key => frame.intents.find? fun intent => intent.id = key
  have perm : listed.Perm frame.intents := by
    have same := keysPerm.filterMap fun key => frame.intents.find? fun intent => intent.id = key
    rwa [filterMap_find orderly.unique] at same
  have nonempty : listed ≠ [] := fun empty =>
    frame.nonempty (List.nil_perm.mp (empty ▸ perm))
  have few : listed.length ≤ 8 := perm.length_eq ▸ frame.few
  let listing : IntentFrame := { intents := listed, nonempty, few }
  have unique : (listing.intents.map (·.id)).Nodup := (orderly.of_perm perm).unique
  have behind : ∀ before intent after, listing.intents = before ++ intent :: after →
      ∀ parent ∈ intent.dependsOn, parent ∈ before.map (·.id) := by
    intro before intent after split parent among
    have here : intent ∈ listing.intents :=
      split ▸ List.mem_append_right before List.mem_cons_self
    have member : intent ∈ frame.intents := perm.mem_iff.mp here
    have cut : keys = before.map (·.id) ++ intent.id :: after.map (·.id) := by
      rw [← listed_ids orderly.unique fun key among => keysPerm.mem_iff.mp among]
      exact (congrArg (List.map (·.id)) split).trans List.map_append
    exact layered _ _ _ cut parent ⟨intent, member, rfl, among⟩
  have groundedListing : (listing.intents.all fun intent => intent.grounded source) = true := by
    rw [List.all_eq_true] at grounded ⊢
    exact fun intent member => grounded intent (perm.mem_iff.mp member)
  exact ⟨listing, perm, validatedFor_ok unique groundedListing
    (foldlM_layered unique behind [] listing.intents rfl)⟩

/-- A frame grounded in its text meets what is expected in every listing of its intents just when
it is not orderly or no chain of its dependencies has more than four edges. -/
theorem validatedFor_meets (frame : IntentFrame) (source : String)
    (grounded : (frame.intents.all fun intent => intent.grounded source) = true) :
    (∀ listing : IntentFrame, listing.intents.Perm frame.intents → listing.Meets source) ↔
      (Orderly frame.intents → Shallow frame.intents) := by
  constructor
  · intro meets orderly
    obtain ⟨listing, perm, accepted⟩ := exists_listing_accepted orderly grounded
    exact ((meets listing perm).1.mp accepted).2.of_perm perm.symm
  · intro shallow listing perm
    have groundedListing : (listing.intents.all fun intent => intent.grounded source) = true := by
      rw [List.all_eq_true] at grounded ⊢
      exact fun intent member => grounded intent (perm.mem_iff.mp member)
    refine ⟨⟨fun ⟨ordered, valid⟩ => ?_, validatedFor_of_listable groundedListing⟩,
      fun ordered valid => ⟨validatedFor_perm valid, fun before intent after split =>
        validatedFor_behind valid split⟩⟩
    have orderly := validatedFor_orderly valid
    exact ⟨orderly, (shallow (orderly.of_perm perm.symm)).of_perm perm⟩

end

/-- Six intents, each behind the one it depends on: a chain of five edges. -/
def longChain : IntentFrame where
  intents :=
    [{ id := "5", type := .other, sourceQuote := "a" },
      { id := "4", type := .other, sourceQuote := "a", dependsOn := ["5"] },
      { id := "3", type := .other, sourceQuote := "a", dependsOn := ["4"] },
      { id := "2", type := .other, sourceQuote := "a", dependsOn := ["3"] },
      { id := "1", type := .other, sourceQuote := "a", dependsOn := ["2"] },
      { id := "0", type := .other, sourceQuote := "a", dependsOn := ["1"] }]

theorem longChain_accepted : longChain.validatedFor "a" = .ok longChain.intents := by decide +kernel

theorem longChain_grounded :
    (longChain.intents.all fun intent => intent.grounded "a") = true := by decide +kernel

theorem longChain_deep : ¬ Shallow longChain.intents := by
  intro shallow
  have chain : Chain longChain.intents ["0", "1", "2", "3", "4", "5"] := by
    unfold Chain DependsOn
    decide +kernel
  exact absurd (shallow _ chain) (by decide)

/-- The chain passes in this listing, although it is too long. -/
theorem longChain_not_meets :
    (longChain.intents.all fun intent => intent.grounded "a") = true ∧ ¬ longChain.Meets "a" :=
  ⟨longChain_grounded, fun meets => longChain_deep (meets.1.mp ⟨_, longChain_accepted⟩).2⟩

/-- Not every listing of the chain is treated as expected. -/
theorem validatedFor_meets_longChain :
    ¬ ∀ listing : IntentFrame, listing.intents.Perm longChain.intents → listing.Meets "a" :=
  fun meets => longChain_deep
    ((validatedFor_meets longChain "a" (by decide +kernel)).mp meets
      (validatedFor_orderly longChain_accepted))

end Negotiation
