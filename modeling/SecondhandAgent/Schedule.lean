/-
This file runs the system on a list of events. A list whose clock readings do
not go back and whose events are allowed is a run, and the world it ends in is
computed; a concrete session on which the later files run their theorems is
defined at the end.
-/

import SecondhandAgent.System

namespace Negotiation

open Store

/-! ### Lists of events -/

instance decidableTimely (clock : Time) : (readings : List Time) → Decidable (Timely clock readings)
  | [] => inferInstanceAs (Decidable True)
  | reading :: rest =>
    haveI := decidableTimely reading rest
    inferInstanceAs (Decidable (_ ∧ _))

instance (transaction : Transaction) : Decidable transaction.OfRunner := by
  cases transaction <;> first | exact .isTrue trivial | exact .isFalse not_false

instance (event : Event) : Decidable event.Allowed :=
  match event with
  | .call transaction => inferInstanceAs (Decidable ¬ transaction.OfRunner)
  | .runnerClaim _ _ | .runnerStep _ _ _ _ | .runnerRaise _ | .runnerCrash _ => .isTrue trivial

/-- The events can happen one after the other from this clock on. -/
def Scheduled (clock : Time) : List Event → Prop
  | [] => True
  | event :: rest =>
    (Timely clock event.readings ∧ event.Allowed) ∧
      Scheduled (event.readings.getLastD clock) rest

instance decidableScheduled (clock : Time) : (events : List Event) → Decidable (Scheduled clock events)
  | [] => inferInstanceAs (Decidable True)
  | event :: rest =>
    haveI := decidableScheduled (event.readings.getLastD clock) rest
    inferInstanceAs (Decidable ((_ ∧ _) ∧ _))

section

variable [Platform]

namespace World

/-- The world after the events, oldest event first. -/
def after (world : World) (events : List Event) : World := events.foldl World.next world

theorem after_append (world : World) (one two : List Event) :
    world.after (one ++ two) = (world.after one).after two := List.foldl_append

/-- The transitions the events make after those of `past`, newest transition first. -/
def history (world : World) (past : List (Transition World Event)) :
    List Event → List (Transition World Event)
  | [] => past
  | event :: rest => (world.next event).history (⟨world, event, world.next event⟩ :: past) rest

/-- Scheduled events go on with a run. -/
theorem run_history {first world : World} {past : List (Transition World Event)}
    {events : List Event} (run : Run World.Step first past world)
    (scheduled : Scheduled world.clock events) :
    Run World.Step first (world.history past events) (world.after events) := by
  induction events generalizing world past with
  | nil => exact run
  | cons event rest inductionHypothesis =>
    obtain ⟨⟨timely, allowed⟩, later⟩ := scheduled
    have taken : World.Step world event (world.next event) := ⟨timely, allowed, rfl⟩
    exact inductionHypothesis (run.next taken) later

/-- Scheduled events lead from an initial world to a reachable one. -/
theorem reachable_after {world : World} {events : List Event} (initial : World.Initial world)
    (scheduled : Scheduled world.clock events) :
    Reachable World.Step World.Initial (world.after events) :=
  ⟨world, _, initial, run_history (.start world) scheduled⟩

/-- A transaction that succeeds leads to its result. -/
theorem after_call {world : World} {events : List Event} {transaction : Transaction} {db : Db}
    (done : (world.after events).db.perform transaction = .ok db) :
    (world.after (events ++ [.call transaction])).db = db := by
  unfold after at done ⊢
  rw [List.foldl_append]
  show ((events.foldl World.next world).settleTransaction transaction).db = db
  unfold settleTransaction
  rw [done]

end World

end

/-! ### A session -/

/-- A digest for the session below: injective enough to tell its inputs apart. -/
def sampleDigest : Json → Nat
  | .null => 1
  | .bool value => if value then 3 else 2
  | .number value => 4 + 7 * value.natAbs
  | .text value => 5 + 8 * value.length
  | .digest value => 6 + 11 * value.toNat
  | .pair first second => 3 * sampleDigest first + 5 * sampleDigest second + 8

/-- A platform that can be computed with. -/
abbrev samplePlatform : Platform where
  digest value := BitVec.ofNat 256 (sampleDigest value)
  decimal _ := none
  modelName := "model"

/-- Goods for 120 yuan, whose seller takes 100 at once and 50 after a review. -/
def sampleDb : Db where
  session := { buyerId := "buyer", graphVersion := .negotiationV1 }
  product :=
    { sellerId := "seller", title := "相机", description := "九成新", listedPrice := ⟨12000, by decide⟩
      status := .available, productVersion := 1 }
  policy :=
    { minimumNetPrice := ⟨5000, fifty_fits⟩, autoAcceptThreshold := ⟨10000, hundred_fits⟩
      maxRounds := 6, version := 1, ordered := by decide, rounds := by decide
      positive := Nat.one_pos }
  facts := .empty
  rules := .empty

/-- The session on those goods as it begins. -/
def sampleWorld : World where
  clock := 0
  db := sampleDb
  threads _ := {}
  runners := .empty

/-- The buyer offers an amount, shipping on the buyer. -/
def sampleOffer (kind : Kind) (amount : Amount)
    (checked : CheckKind kind (some { amount }) none none := by decide) : Payload :=
  .typed { kind, terms := some { amount }, checked }

/-- An offer of 70 yuan, which the seller is asked about. -/
def lowOffer : Payload := sampleOffer .submit ⟨⟨7000, by decide⟩, "70"⟩

theorem ninety_positive : (some (⟨9000, ninety_fits⟩ : Money)).map (·.cents) ≠ some 0 := by decide

theorem unrepaired_few :
    [({ fact := .repairHistory, operator := .equal, value := "NO", sourceQuote := "没修过" } :
      Predicate)].length ≤ 8 := by decide

theorem hundredTen_checked :
    CheckKind .submit (some { amount := ⟨⟨11000, hundredTen_fits⟩, "110"⟩ }) none none := by decide

/-- An offer of 110 yuan, which is accepted at once. -/
def highOffer : Payload :=
  sampleOffer .submit ⟨⟨11000, hundredTen_fits⟩, "110"⟩ hundredTen_checked

/-- In the first second the first input is enqueued, claimed and executed; its offer has the
key 5, and the approval of a low offer the key 6. -/
def firstCommand (payload : Payload) : List Event :=
  [.call (.enqueue "buyer" "first" payload none (seconds 1)),
    .call (.claim 1 (seconds 1)),
    .call (.execute 1 (4, 1) 1 (seconds 1) none)]

/-- The buyer offers 70 yuan, and the session waits for the seller. -/
def submission : List Event := firstCommand lowOffer

/-- The reply to the first input is published and the input is closed. -/
def reply [Platform] (payload : Payload) (messageId : Nat) : List Event :=
  [.call (.publishOwned 1 (4, 1) (seconds 2)),
    .call (.finalize 1 (4, 1)
      { runId := 1, inputSeq := 1, inputHash := digest payload.json
        configHash := digest (defaultConfig .negotiationV1).json
        graphVersion := .negotiationV1, publishedMessageId := some messageId } false
      (seconds 2) (seconds 2))]

/-- The buyer offers 110 yuan, is shown the accepted offer and sends a confirmation. -/
def confirming [Platform] : List Event :=
  firstCommand highOffer ++ reply highOffer 7 ++
    [.call (.display "buyer" 6 "internal" "shown" (seconds 3) (seconds 3) (seconds 3)),
      .call (.enqueue "buyer" "second"
        (.typed { kind := .confirm, offerId := some 5, displayReceiptId := some 8 }) none
        (seconds 4)),
      .call (.claim 9 (seconds 4))]

/-- The confirmation is carried out. -/
def confirmation : Event := .call (.execute 9 (12, 1) 2 (seconds 4) none)

/-- The seller consents. -/
def consent : List Event :=
  [.call (.review "seller" 6 "consent" none true (some 0) (seconds 3) none)]

/-- The buyer closes the session. -/
def closure : List Event :=
  [.call (.enqueue "buyer" "second" (.typed { kind := .close }) none (seconds 4)),
    .call (.claim 9 (seconds 4)),
    .call (.execute 9 (12, 1) 2 (seconds 4) none)]

/-- The seller consents, and the buyer closes the session before the consent is applied. -/
def lateConsent [Platform] : List Event :=
  submission ++ reply lowOffer 8 ++ consent ++ closure

/-- A runner of the approval makes some steps. -/
def runnerSteps (token count : Nat) (now : Time) : List Event :=
  .runnerClaim 6 now :: List.replicate count (.runnerStep token now now none)

/-- The same goods in a session that the buyer writes freely in: the seller sends them or has
them picked up, and never repaired them. -/
def semanticDb : Db :=
  { sampleDb with
    session := { buyerId := "buyer", graphVersion := .negotiationV2 }
    facts :=
      { rows :=
          [{ id := 1
             value := .allowedDeliveryMethods [.shipping, .pickup] (by decide) (by decide)
             version := 1 },
            { id := 2, value := .repairHistory .no, version := 1 }]
        unique := by decide }
    nextId := 3 }

def semanticWorld : World where
  clock := 0
  db := semanticDb
  threads _ := {}
  runners := .empty

/-- The buyer writes, and the input is claimed under its key. -/
def written (requestId text : String) (runId : Nat) (now : Time) : List Event :=
  [.call (.enqueue "buyer" requestId (.chat { text, clientViewId := "internal" }) none now),
    .call (.claim runId now)]

theorem semanticWorld_initial : World.Initial semanticWorld :=
  ⟨⟨_, _, _, _, _, _, _, rfl⟩, fun _ => rfl, rfl,
    fun rule member => absurd member (Table.not_mem_empty rule)⟩

theorem sampleWorld_initial : World.Initial sampleWorld :=
  ⟨⟨_, _, _, _, _, _, _, rfl⟩, fun _ => rfl, rfl,
    fun rule member => absurd member (Table.not_mem_empty rule)⟩

end Negotiation
