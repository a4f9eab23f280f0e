import Rebalance.Controller.Staged
import Rebalance.Proofs.Controller.Accounting
import Rebalance.Proofs.Controller.Retained

/-!
Two controllers that go by the same settings, state and gate do the same, whatever they have
counted, as long as their decisions replay the same records. So telemetry that no decision
replays makes no difference: that of an ignored epoch, and what comes while nothing is collected.
-/

namespace Rebalance

variable {α : Type}

theorem Controller.gate_receiveBatch (controller : Controller α) (batch : List Record) :
    (controller.receiveBatch batch).gate = controller.gate := by
  unfold receiveBatch
  simp only
  split
  · rfl
  · rfl

/-- The same settings, state and gate. What was counted may differ. -/
structure Controller.Matches (first second : Controller α) : Prop where
  config : first.config = second.config
  state : first.state = second.state
  gate : first.gate = second.gate

/-- Matching controllers, each with a cluster, and these are related. -/
structure Abreast {σ τ : Type} (related : σ → τ → Prop) (first : Controller α × σ)
    (second : Controller α × τ) : Prop where
  matched : first.1.Matches second.1
  after : related first.2 second.2

theorem Abreast.closed {σ τ : Type} {related : σ → τ → Prop} {first : Controller α × σ}
    {second : Controller α × τ} (abreast : Abreast related first second) :
    Abreast related (first.1.clearLedger.setState first.1.state, first.2)
      (second.1.clearLedger.setState second.1.state, second.2) :=
  ⟨⟨abreast.matched.config, abreast.matched.state, abreast.matched.gate⟩, abreast.after⟩

def Watched.Same {σ τ : Type} (related : σ → τ → Prop) (first : Watched σ) (second : Watched τ) :
    Prop := first.requests = second.requests ∧ related first.inner second.inner

theorem Watched.alike_same {σ τ : Type} [Environment σ] [Environment τ] {related : σ → τ → Prop}
    (alike : Environment.Alike related) : Environment.Alike (Watched.Same related) where
  isReady known := by
    obtain ⟨same, after⟩ := alike.isReady known.2
    exact ⟨same, known.1, after⟩
  snapshot known := by
    obtain ⟨same, after⟩ := alike.snapshot known.2
    exact ⟨same, known.1, after⟩
  startMove move known := by
    obtain ⟨same, after⟩ := alike.startMove move known.2
    refine ⟨same, ?_, after⟩
    simp only [Environment.startMove, known.1, same]
  retireSite host site known := by
    obtain ⟨same, after⟩ := alike.retireSite host site known.2
    refine ⟨same, ?_, after⟩
    simp only [Environment.retireSite, known.1, same]

namespace Controller.Matches

theorem deliberate_eq [Scalar α] {first second : Controller α} (matched : first.Matches second)
    (same : first.ledger.records = second.ledger.records) (topology : Topology) :
    first.deliberate topology = second.deliberate topology := by
  have replayed : (first.replay topology).sample = (second.replay topology).sample := by
    rw [sample_replay, sample_replay, Ledger.replayInto, Ledger.replayInto, same, matched.config]
  unfold deliberate
  rw [evidence_gather, evidence_gather, replayed, matched.config, matched.gate, same]

theorem begin {first second : Controller α} (matched : first.Matches second) (now : Nat) :
    (first.begin now).Matches (second.begin now) where
  config := matched.config
  state := congrArg (fun config : Config α => ControllerState.collecting config.startupIgnoreEpochs)
    matched.config
  gate := matched.gate

/-- What is told by a batch touches neither settings nor state nor gate. -/
theorem receiveBatch {first second : Controller α} (matched : first.Matches second)
    (batch other : List Record) :
    (first.receiveBatch batch).Matches (second.receiveBatch other) where
  config := by rw [config_receiveBatch, config_receiveBatch, matched.config]
  state := by rw [state_receiveBatch, state_receiveBatch, matched.state]
  gate := by rw [gate_receiveBatch, gate_receiveBatch, matched.gate]

theorem checkProgress {first second : Controller α} (matched : first.Matches second)
    (now ignoreAfter lastProgress : Nat) :
    (first.checkProgress now ignoreAfter lastProgress).Matches
      (second.checkProgress now ignoreAfter lastProgress) := by
  unfold Controller.checkProgress
  rw [matched.config]
  simp only
  split
  · exact matched
  · exact ⟨matched.config, rfl, matched.gate⟩

section
variable {σ τ : Type} [Environment σ] [Environment τ] {related : σ → τ → Prop}
  (alike : Environment.Alike related) {first second : Controller α}
  (matched : first.Matches second) {environment : σ} {other : τ}
  (known : related environment other)
include alike matched known

theorem receiveAck (now : Nat) (site : SiteId) :
    Abreast related (first.receiveAck now site environment) (second.receiveAck now site other) := by
  obtain ⟨config, state, gate⟩ := matched
  unfold Controller.receiveAck
  rw [state]
  split
  · split
    · exact ⟨⟨config, state, gate⟩, known⟩
    · exact ⟨⟨config, rfl, gate⟩, known⟩
    · exact ⟨⟨config, rfl, gate⟩, (alike.retireSources _ known).after⟩
  · exact ⟨⟨config, state, gate⟩, known⟩

theorem migrate (now : Nat) (evidence : Evidence α) (reason : Reason) (candidate : Solution α) :
    Abreast related (first.migrate now evidence reason candidate environment)
      (second.migrate now evidence reason candidate other) := by
  obtain ⟨config, state, gate⟩ := matched
  unfold Controller.migrate
  simp only
  split
  · exact ⟨⟨config, state, gate⟩, known⟩
  · obtain ⟨same, after⟩ := alike.dispatch {}
      (Plan.make evidence.placement candidate.placement evidence.topology).moves known
    rw [same]
    split
    · exact ⟨⟨config, state, gate⟩, after⟩
    · refine ⟨⟨config, ?_, gate⟩, after⟩
      simp only [state_setState, config_modifyMetrics, config]

variable [Scalar α]

theorem conclude (now : Nat) (deliberation : Deliberation α) :
    Abreast related (first.conclude now deliberation environment)
      (second.conclude now deliberation other) := by
  obtain ⟨config, state, gate⟩ := matched
  obtain ⟨_, _, touched⟩ := first.exists_gather deliberation.topology
  obtain ⟨_, _, touchedToo⟩ := second.exists_gather deliberation.topology
  have limits := congrArg Config.searchLimits config
  unfold Controller.conclude
  simp only [touched, touchedToo, limits]
  split
  · exact ⟨⟨config, state, gate⟩, known⟩
  · split
    · exact ⟨⟨config, state, rfl⟩, known⟩
    · exact ⟨⟨config, state, rfl⟩, known⟩
    · exact migrate alike (by exact ⟨config, state, rfl⟩) known ..

theorem decide (now : Nat) (same : first.ledger.records = second.ledger.records) :
    Abreast related (first.decide now environment) (second.decide now other) := by
  have asked := alike.snapshot known
  rw [decide_eq, decide_eq]
  generalize Environment.snapshot environment = answer at asked ⊢
  generalize Environment.snapshot other = answerToo at asked ⊢
  obtain ⟨shown, left⟩ := answer
  obtain ⟨shownToo, right⟩ := answerToo
  obtain ⟨rfl, after⟩ := asked
  cases shown with
  | none => exact ⟨matched, after⟩
  | some topology =>
    simp only [matched.deliberate_eq same]
    exact conclude alike matched after now _

theorem closeEpoch (now : Nat)
    (same : first.state = .collecting 0 → first.ledger.records = second.ledger.records) :
    Abreast related (first.closeEpoch now environment) (second.closeEpoch now other) := by
  unfold Controller.closeEpoch
  have counted : ({ first with epoch := first.epoch + 1 }.modifyMetrics (·.recordEpoch now)).Matches
      ({ second with epoch := second.epoch + 1 }.modifyMetrics (·.recordEpoch now)) :=
    ⟨matched.config, matched.state, matched.gate⟩
  simp only
  rw [counted.state]
  split
  · exact ⟨counted, known⟩
  · exact ⟨⟨counted.config, rfl, counted.gate⟩, known⟩
  · next before =>
    refine (decide alike ?_ known now ?_).closed
    · exact ⟨counted.config, counted.state, counted.gate⟩
    · exact same (matched.state.trans before)
  · exact ⟨counted.checkProgress .., known⟩

end

end Controller.Matches

/-- Events that differ at most in the contents of a batch. -/
inductive Event.Resembles : Event → Event → Prop where
  | refl (event : Event) : Resembles event event
  | telemetry (now : Nat) (batch other : List Record) :
      Resembles (.message now (.telemetry batch)) (.message now (.telemetry other))

namespace Controller.Matches

variable [Scalar α] {σ τ : Type} [Environment σ] [Environment τ] {related : σ → τ → Prop}
  (alike : Environment.Alike related) {first second : Controller α}
  (matched : first.Matches second) {environment : σ} {other : τ}
  (known : related environment other) {event eventToo : Event}
  (resembles : event.Resembles eventToo)
  (same : event.isEpoch = true → first.state = .collecting 0 →
    first.ledger.records = second.ledger.records)
include alike matched known resembles same

theorem handle :
    Abreast related (first.handle event environment) (second.handle eventToo other) := by
  cases resembles with
  | refl event =>
    cases event with
    | ready now =>
      unfold Controller.handle
      simp only [matched.state]
      split
      · exact ⟨matched.begin now, known⟩
      · exact ⟨matched, known⟩
    | message now message =>
      cases message with
      | telemetry batch => exact ⟨matched.receiveBatch batch batch, known⟩
      | moveDone site => exact receiveAck alike matched known now site
    | epoch now => exact closeEpoch alike matched known now (same rfl)
  | telemetry now batch batchToo => exact ⟨matched.receiveBatch batch batchToo, known⟩

theorem deliberation?_eq :
    first.deliberation? ⟨event, environment⟩ = second.deliberation? ⟨eventToo, other⟩ := by
  cases resembles with
  | telemetry now batch batchToo => rfl
  | refl event =>
    cases event with
    | ready now => rfl
    | message now message => rfl
    | epoch now =>
      unfold Controller.deliberation?
      rw [matched.state]
      cases before : second.state with
      | startupWait => rfl
      | migrating run ignoreAfter lastProgress => rfl
      | collecting ignore =>
        cases ignore with
        | succ ignore => rfl
        | zero =>
          have replayed := same rfl (matched.state.trans before)
          have asked := (alike.snapshot known).same
          have heard : first.deliberate = second.deliberate :=
            funext (matched.deliberate_eq replayed)
          simp only [asked, heard]

end Controller.Matches

/-- An event, and what becomes of the cluster by itself until then. -/
structure Happening (σ : Type) where
  event : Event
  drift : σ → σ

namespace Controller

variable [Scalar α] {σ : Type} [Environment σ]

theorem accounts_concat (controller : Controller α) (occasions : List (Occasion σ))
    (occasion : Occasion σ) :
    controller.accounts (occasions ++ [occasion]) =
      controller.accounts occasions ++ [((controller.following occasions).account occasion).2] := by
  induction occasions generalizing controller with
  | nil => rfl
  | cons first occasions ih => exact congrArg (_ :: ·) (ih (controller.account first).1)

theorem deliberation_of_due {controller : Controller α} (due : controller.state = .collecting 0)
    (now : Nat) {environment : σ} {topology : Topology}
    (informed : (Environment.snapshot environment).1 = some topology) :
    (controller.account ⟨.epoch now, environment⟩).2.deliberation =
      some (controller.deliberate topology) := by
  change controller.deliberation? ⟨.epoch now, environment⟩ = _
  unfold deliberation?
  rw [due, informed]
  rfl

def occasions : Controller α → σ → List (Happening σ) → List (Occasion σ)
  | _, _, [] => []
  | controller, environment, happening :: rest =>
    let occasion : Occasion σ :=
      { event := happening.event, environment := happening.drift environment }
    let (next, environment) := controller.handle occasion.event occasion.environment
    occasion :: next.occasions environment rest

def run (controller : Controller α) (environment : σ) (happenings : List (Happening σ)) :
    List (Account α) := controller.accounts (controller.occasions environment happenings)

theorem run_cons (controller : Controller α) (environment : σ) (happening : Happening σ)
    (rest : List (Happening σ)) :
    let occasion : Occasion σ :=
      { event := happening.event, environment := happening.drift environment }
    controller.run environment (happening :: rest) =
      (controller.account occasion).2 ::
        (controller.account occasion).1.run
          (controller.handle occasion.event occasion.environment).2 rest := by
  intro occasion
  have same : (controller.account occasion).1 =
      (controller.handle occasion.event occasion.environment).1 :=
    controller.handle_watched occasion.event { inner := occasion.environment }
  unfold run
  rw [same]
  show _ :: (controller.account occasion).1.accounts _ = _
  rw [same]
  rfl

end Controller

def ControllerState.ignores : ControllerState → Bool
  | collecting (_ + 1) => true
  | _ => false

theorem ControllerState.of_ignores {state : ControllerState} (ignores : state.ignores = true) :
    ∃ ignore, state = .collecting (ignore + 1) := by
  unfold ControllerState.ignores at ignores
  split at ignores
  · exact ⟨_, rfl⟩
  · cases ignores

def Entry.closes (entry : Entry) : Bool := entry.event.isEpoch

def EndsIgnored (later : List Entry) : Prop :=
  ∃ closing ∈ later.find? Entry.closes, closing.before.ignores = true

instance (later : List Entry) : Decidable (EndsIgnored later) :=
  inferInstanceAs (Decidable (∃ closing ∈ later.find? Entry.closes, closing.before.ignores = true))

theorem EndsIgnored.of_cons {entry : Entry} {later : List Entry}
    (ends : EndsIgnored (entry :: later)) (unclosed : entry.closes = false) :
    EndsIgnored later := by
  rwa [EndsIgnored, List.find?_cons_of_neg (Bool.eq_false_iff.1 unclosed)] at ends

theorem EndsIgnored.before {entry : Entry} {later : List Entry}
    (ends : EndsIgnored (entry :: later)) (closed : entry.closes = true) :
    ∃ ignore, entry.before = .collecting (ignore + 1) := by
  rw [EndsIgnored, List.find?_cons_of_pos closed] at ends
  obtain ⟨closing, found, ignores⟩ := ends
  obtain rfl := Option.mem_some.1 found
  exact ControllerState.of_ignores ignores

/-- Whether the records of an entry come to nothing: they arrive while nothing is collected, or
in an epoch that ends as an ignored one. -/
def Entry.Unseen (entry : Entry) (later : List Entry) : Prop :=
  entry.before.isCollecting = false ∨ EndsIgnored later

instance (entry : Entry) (later : List Entry) : Decidable (entry.Unseen later) :=
  inferInstanceAs (Decidable (entry.before.isCollecting = false ∨ EndsIgnored later))

/-- What may come in the place of an entry's event: only unseen batches are replaced. -/
inductive Entry.Tells (entry : Entry) (later : List Entry) : Event → Prop where
  | same : Tells entry later entry.event
  | unseen {now : Nat} {batch : List Record} (other : List Record)
      (told : entry.event = .message now (.telemetry batch)) (unseen : entry.Unseen later) :
      Tells entry later (.message now (.telemetry other))

/-- Events that differ from those of a run in the contents of unseen batches only. -/
inductive DiffersUnseen : List Entry → List Event → Prop where
  | nil : DiffersUnseen [] []
  | cons {entry : Entry} {later : List Entry} {event : Event} {events : List Event}
      (tells : entry.Tells later event) (rest : DiffersUnseen later events) :
      DiffersUnseen (entry :: later) (event :: events)

theorem Entry.Tells.resembles {entry : Entry} {later : List Entry} {event : Event}
    (tells : entry.Tells later event) : entry.event.Resembles event := by
  cases tells with
  | same => exact .refl _
  | unseen other told =>
    rw [told]
    exact .telemetry _ _ other

/-- Nothing tells two accounts apart but the event: the same was gone by and asked for. -/
structure Account.Alike (first second : Account α) : Prop where
  before : first.before = second.before
  deliberation : first.deliberation = second.deliberation
  requests : first.requests = second.requests
  after : first.after = second.after

def Level (first second : Controller α) (later : List Entry) : Prop :=
  first.ledger.records = second.ledger.records ∨ EndsIgnored later

theorem Level.replayed {first second : Controller α} {entry : Entry} {later : List Entry}
    (level : Level first second (entry :: later)) (closed : entry.closes = true)
    (deciding : entry.before = .collecting 0) : first.ledger.records = second.ledger.records := by
  rcases level with same | ends
  · exact same
  · obtain ⟨ignore, before⟩ := ends.before closed
    cases deciding.symm.trans before

section
variable [Scalar α] {σ τ : Type} [Environment σ] [Environment τ] {related : σ → τ → Prop}
  {first second : Controller α} {environment : σ} {other : τ} {event eventToo : Event}

theorem Controller.Matches.account (alike : Environment.Alike related)
    (matched : first.Matches second) (known : related environment other)
    (resembles : event.Resembles eventToo)
    (same : event.isEpoch = true → first.state = .collecting 0 →
      first.ledger.records = second.ledger.records) :
    (first.account ⟨event, environment⟩).1.Matches (second.account ⟨eventToo, other⟩).1 ∧
      (first.account ⟨event, environment⟩).2.Alike (second.account ⟨eventToo, other⟩).2 := by
  have watched : Watched.Same related ⟨environment, []⟩ ⟨other, []⟩ := ⟨rfl, known⟩
  have handled := handle (Watched.alike_same alike) matched watched resembles same
  exact ⟨handled.matched, matched.state, deliberation?_eq alike matched known resembles same,
    handled.after.1, handled.matched.state⟩

theorem Level.record {limit : Nat} {earlier earlierToo later : List Entry}
    (matched : first.Matches second) (retains : first.Retains limit earlier)
    (retainsToo : second.Retains limit earlierToo)
    (tells : (first.record ⟨event, environment⟩).2.Tells later eventToo)
    (level : Level first second ((first.record ⟨event, environment⟩).2 :: later)) :
    Level (first.record ⟨event, environment⟩).1 (second.record ⟨eventToo, other⟩).1 later := by
  have resembles : event.Resembles eventToo := tells.resembles
  cases closed : event.isEpoch with
  | true =>
    have closedToo : eventToo.isEpoch = true := by
      cases resembles with
      | refl => exact closed
      | telemetry => cases closed
    have after : (first.record ⟨event, environment⟩).1.ledger = _ :=
      first.ledger_record_epoch closed
    have afterToo : (second.record ⟨eventToo, other⟩).1.ledger = _ :=
      second.ledger_record_epoch closedToo
    left
    rw [after, afterToo, matched.state]
    split
    · rfl
    · next idle =>
      rcases level with same | ends
      · exact same
      · obtain ⟨ignore, before⟩ := ends.before closed
        rw [← matched.state, show first.state = _ from before] at idle
        exact absurd rfl idle
  | false =>
    have unclosed : eventToo.isEpoch = false := by
      cases resembles with
      | refl => exact closed
      | telemetry => rfl
    rcases level with same | ends
    · have room : first.ledger.maxRetained = second.ledger.maxRetained :=
        retains.room.trans retainsToo.room.symm
      have after : (first.record ⟨event, environment⟩).1.ledger.records = _ :=
        (first.ledger_record closed retains.fits).2
      have afterToo : (second.record ⟨eventToo, other⟩).1.ledger.records = _ :=
        (second.ledger_record unclosed retainsToo.fits).2
      cases tells with
      | same =>
        have kept : (first.record ⟨event, environment⟩).2.kept =
            (second.record ⟨event, other⟩).2.kept :=
          congrArg (fun state : ControllerState => if state.isCollecting then event.batch else [])
            matched.state
        left
        rw [after, afterToo, same, room, kept]
        rfl
      | unseen batch told unseen =>
        rcases unseen with idle | ends
        · have idleToo : second.state.isCollecting = false := matched.state ▸ idle
          left
          rw [after, afterToo, same, room, Controller.kept_record_of_idle _ _ idle,
            Controller.kept_record_of_idle _ _ idleToo]
        · exact .inr ends
    · exact .inr (ends.of_cons closed)

/-- Two runs with related clusters, one of which is told other unseen records. -/
theorem alike_run (alike : Environment.Alike related) {limit : Nat}
    {earlier earlierToo : List Entry} (matched : first.Matches second)
    (retains : first.Retains limit earlier) (retainsToo : second.Retains limit earlierToo)
    (known : related environment other) {happenings : List (Happening σ)}
    {others : List (Happening τ)}
    (drifts : List.Forall₂ (fun happening happeningToo => ∀ one another, related one another →
      related (happening.drift one) (happeningToo.drift another)) happenings others)
    (differs : DiffersUnseen ((first.run environment happenings).map (·.toEntry))
      (others.map (·.event)))
    (level : Level first second ((first.run environment happenings).map (·.toEntry))) :
    List.Forall₂ Account.Alike (first.run environment happenings) (second.run other others) := by
  induction drifts generalizing first second environment other earlier earlierToo with
  | nil => exact .nil
  | @cons happening happeningToo happenings others drift drifts ih =>
    obtain ⟨event, drifted⟩ := happening
    obtain ⟨eventToo, driftedToo⟩ := happeningToo
    rw [Controller.run_cons, List.map_cons] at differs level
    rw [Controller.run_cons, Controller.run_cons]
    have after := drift environment other known
    cases differs with
    | cons tells rest =>
      have resembles : event.Resembles eventToo := tells.resembles
      have replayed : event.isEpoch = true → first.state = .collecting 0 →
          first.ledger.records = second.ledger.records :=
        fun closed deciding => level.replayed closed deciding
      obtain ⟨matchedAfter, same⟩ := matched.account alike after resembles replayed
      have handled := Controller.Matches.handle alike matched after resembles replayed
      have levelAfter : Level (first.record ⟨event, drifted environment⟩).1
          (second.record ⟨eventToo, driftedToo other⟩).1 _ :=
        level.record matched retains retainsToo tells
      have retainsAfter := retains.record ⟨event, drifted environment⟩
      have retainsAfterToo := retainsToo.record ⟨eventToo, driftedToo other⟩
      exact .cons same (ih matchedAfter retainsAfter retainsAfterToo handled.after rest levelAfter)

end

theorem Environment.alike_eq {σ : Type} [Environment σ] :
    Environment.Alike fun first second : σ => first = second where
  isReady same := by subst same; exact ⟨rfl, rfl⟩
  snapshot same := by subst same; exact ⟨rfl, rfl⟩
  startMove _ same := by subst same; exact ⟨rfl, rfl⟩
  retireSite _ _ same := by subst same; exact ⟨rfl, rfl⟩

/-- A decision replays exactly the first records, up to the limit, of those handled while
collecting since an epoch was last closed or collecting last began. So of two runs with
clusters that answer alike, and that differ in unseen batches only, the gate is evaluated alike
and the same is asked of the clusters. -/
theorem decision_sees_own_epoch {α : Type} [Scalar α] {σ τ : Type} [Environment σ]
    [Environment τ] (config : Config α) :
    (∀ (occasions : List (Occasion σ)) (earlier later : List (Account α)) (account : Account α)
      (deliberation : Deliberation α),
      (Controller.new config).accounts occasions = earlier ++ account :: later →
        account.deliberation = some deliberation →
          deliberation.Sees
            ((Entry.gathered (earlier.map (·.toEntry))).take config.maxRetainedRecords)
            config.maxSamplesPerGroup) ∧
    ∀ (related : σ → τ → Prop) (environment : σ) (other : τ) (happenings : List (Happening σ))
      (others : List (Happening τ)),
      Environment.Alike related → related environment other →
        List.Forall₂ (fun happening happeningToo => ∀ one another, related one another →
          related (happening.drift one) (happeningToo.drift another)) happenings others →
        DiffersUnseen
          (((Controller.new config).run environment happenings).map (·.toEntry))
          (others.map (·.event)) →
          List.Forall₂ Account.Alike ((Controller.new config).run environment happenings)
            ((Controller.new config).run other others) := by
  have fresh := Controller.retains_new config
  constructor
  · intro occasions earlier later account deliberation split decides
    exact fresh.sees split decides
  · intro related environment other happenings others alike known drifts differs
    exact alike_run alike ⟨rfl, rfl, rfl⟩ fresh fresh known drifts differs (.inl rfl)

def patientConfig : Config Float := { Config.standard with startupIgnoreEpochs := 1 }

def crampedConfig : Config Float := { patientConfig with maxSamplesPerGroup := 1 }

def farPayment : Record :=
  { txnId := 1, procedure := "pay", isSingle := true, partition := some 101, initiatorHost := 200
    initiatorSite := 2, coordinatorSite := 1, latency := 900, messages := [] }

def nearLookup : Record :=
  { farPayment with procedure := "look", initiatorHost := 100, initiatorSite := 1 }

def pairedCluster : StagedCluster :=
  { topology := .new [100, 200] [⟨1, 100, some 101, true⟩, ⟨2, 200, none, false⟩] }

/-- What precedes a decision: batches before the start and in an ignored epoch, and then some that
count. -/
def patientEvents (early ignored : List Record) (counting : List (List Record)) : List Event :=
  [.message 0 (.telemetry early), .ready 1, .message 2 (.telemetry ignored), .epoch 3] ++
    counting.map fun batch => .message 4 (.telemetry batch)

def patientRun (early ignored late counting : List Record) : List (Account Float) :=
  let events := patientEvents early ignored [counting] ++ [.epoch 5, .message 6 (.telemetry late)]
  (Controller.new patientConfig).run pairedCluster (events.map fun event => { event, drift := id })

/-- Of two batches with 66 records the first 64 are replayed, and the gate is evaluated. A run
that migrates is the same with other batches before the start, in an ignored epoch and during
the migration. -/
theorem decision_sees_own_epoch_patient :
    let occasions : List (Occasion StagedCluster) :=
      (patientEvents [farPayment] [farPayment]
        [[nearLookup], List.replicate 63 farPayment ++ [nearLookup, nearLookup]]).map
          fun event => ⟨event, pairedCluster⟩
    (∃ (earlier later : List (Account Float)) (account : Account Float)
      (deliberation : Deliberation Float),
      (Controller.new crampedConfig).accounts (occasions ++ [⟨.epoch 5, pairedCluster⟩]) =
        earlier ++ account :: later ∧ account.deliberation = some deliberation ∧
          Entry.gathered (earlier.map (·.toEntry)) =
              nearLookup :: List.replicate 63 farPayment ++ [nearLookup, nearLookup] ∧
            deliberation.Sees (nearLookup :: List.replicate 63 farPayment) 1 ∧
              deliberation.replayed.size = 64 ∧ deliberation.evaluation.isSome = true) ∧
      List.Forall₂ Account.Alike (patientRun [] [] [] [farPayment])
        (patientRun [farPayment] [farPayment, nearLookup] [nearLookup] [farPayment]) ∧
        (patientRun [] [] [] [farPayment]).map (·.requests.length) = [0, 0, 0, 0, 0, 1, 0] := by
  intro occasions
  refine ⟨?_, ?_, by decide +kernel⟩
  · have ⟨sees, _⟩ := @decision_sees_own_epoch Float _ StagedCluster StagedCluster _ _ crampedConfig
    -- the run is left open here, so that checking this evaluates nothing
    have decides (run : List (Occasion StagedCluster))
        (due : ((Controller.new crampedConfig).following run).state = .collecting 0) :
        ∃ (earlier later : List (Account Float)) (account : Account Float),
          (Controller.new crampedConfig).accounts (run ++ [⟨.epoch 5, pairedCluster⟩]) =
            earlier ++ account :: later ∧
          earlier = (Controller.new crampedConfig).accounts run ∧
          account.deliberation = some (((Controller.new crampedConfig).following run).deliberate
            pairedCluster.topology) :=
      ⟨_, [], _, Controller.accounts_concat .., rfl, Controller.deliberation_of_due due 5 rfl⟩
    obtain ⟨earlier, later, account, split, before, decided⟩ := decides occasions rfl
    have own : Entry.gathered (earlier.map (·.toEntry)) =
        nearLookup :: List.replicate 63 farPayment ++ [nearLookup, nearLookup] := by
      rw [before]
      rfl
    have seen := sees _ earlier later account _ split decided
    rw [own] at seen
    exact ⟨earlier, later, account, _, split, decided, own, seen, by decide +kernel,
      by decide +kernel⟩
  · have ⟨_, alike⟩ := @decision_sees_own_epoch Float _ StagedCluster StagedCluster _ _ patientConfig
    refine alike _ _ _ _ _ Environment.alike_eq rfl ?_ ?_
    · have drift (one another : StagedCluster) (same : one = another) : id one = id another := same
      exact
        .cons drift <| .cons drift <| .cons drift <| .cons drift <| .cons drift <| .cons drift <|
        .cons drift .nil
    · exact
        .cons (.unseen _ rfl (by decide +kernel)) <|
        .cons .same <|
        .cons (.unseen _ rfl (by decide +kernel)) <|
        .cons .same <|
        .cons .same <|
        .cons .same <|
        .cons (.unseen _ rfl (by decide +kernel)) .nil

end Rebalance
