import Mathlib.Data.List.Perm.Basic
import Unnest.Proofs.NodeHistory

/-!
# No report of a node is lost or sent twice

Every target that an accepted request names is told once, or is still going to be.  The entries of
the requests are kept like a ledger: an entry waits for a computation, is taken by its worker, and
is then sent; no event adds or removes one on the way (`NodeHistory.IsBalanced`).  A computation is
never made twice at the same time, since requests that come meanwhile are attached to it
(`FlattenNode.KeepsKeysApart`).  The main statement is `NodeHistory.reports_exactly_once`.
-/

namespace Unnest

variable {σ : Type}

/-! ## Entries -/

/-- A target that an accepted request names, with the computation that the request asks for. -/
abbrev ReportEntry := FlattenKey × RequestId × NodeId

def FlattenRequest.entries (request : FlattenRequest) : List ReportEntry :=
  request.notify.map fun target => (request.key, request.id, target)

/-- The entries of requests that wait for a computation. -/
def waitingEntries (key : FlattenKey) (waiters : List Waiter) : List ReportEntry :=
  (FlattenNode.reportsFor waiters).map fun entry => (key, entry)

theorem waitingEntries_append (key : FlattenKey) (first second : List Waiter) :
    waitingEntries key (first ++ second) =
      waitingEntries key first ++ waitingEntries key second := by
  rw [waitingEntries, FlattenNode.reportsFor, List.flatMap_append, List.map_append]
  rfl

theorem waitingEntries_request (request : FlattenRequest) :
    waitingEntries request.key [⟨request.id, request.notify⟩] = request.entries := by
  simp [waitingEntries, FlattenNode.reportsFor, FlattenRequest.entries]

namespace Worker

/-- The worker has not yet taken the requests that wait for it. -/
def isBusy (worker : Worker) : Bool :=
  match worker.stage with
  | .reporting .. => false
  | _ => true

def isBusyWith (key : FlattenKey) (worker : Worker) : Bool :=
  worker.isBusy && decide (worker.key = key)

/-- The entries that the worker has taken and not yet sent. -/
def taken (worker : Worker) : List ReportEntry :=
  match worker.stage with
  | .reporting _ remaining => remaining.map fun entry => (worker.key, entry)
  | _ => []

end Worker

/-- The entries that are attached to a computation. -/
def waitingIn (inFlight : OrderedMap FlattenKey (List Waiter)) : List ReportEntry :=
  inFlight.flatMap fun (key, waiters) => waitingEntries key waiters

def SentReport.entry (report : SentReport) : ReportEntry :=
  (report.key, report.delivery.report.request, report.delivery.target)

namespace NodeHistory

def asked (history : NodeHistory σ) : List ReportEntry :=
  history.accepted.flatMap fun (_, request) => request.entries

/-- The entries whose report has reached its target. -/
def arrived (history : NodeHistory σ) : List ReportEntry :=
  (history.sent.filter SentReport.hasArrived).map SentReport.entry

/-- The entries whose report could not be delivered. -/
def dropped (history : NodeHistory σ) : List ReportEntry :=
  (history.sent.filter fun report => !report.hasArrived).map SentReport.entry

end NodeHistory

/-! ## What waits for a computation -/

section Waiting

variable {inFlight : OrderedMap FlattenKey (List Waiter)}

theorem count_waitingIn {key : FlattenKey} {waiters : List Waiter}
    (found : OrderedMap.find? key inFlight = some waiters) (entry : ReportEntry) :
    (waitingIn inFlight).count entry = (waitingEntries key waiters).count entry +
      (waitingIn (OrderedMap.erase key inFlight)).count entry := by
  have split := (OrderedMap.perm_of_find? found).flatMap_right
    fun (key, waiters) => waitingEntries key waiters
  have counted := split.count_eq entry
  rw [List.flatMap_cons, List.count_append] at counted
  exact counted

theorem count_waitingIn_insert (ordered : OrderedMap.IsOrdered inFlight) (key : FlattenKey)
    (waiters : List Waiter) (entry : ReportEntry) :
    (waitingIn (OrderedMap.insert key waiters inFlight)).count entry =
      (waitingEntries key waiters).count entry +
        (waitingIn (OrderedMap.erase key inFlight)).count entry := by
  have split := (OrderedMap.insert_perm key waiters ordered).flatMap_right
    fun (key, waiters) => waitingEntries key waiters
  have counted := split.count_eq entry
  rw [List.flatMap_cons, List.count_append] at counted
  exact counted

end Waiting

/-! ## Workers at their places -/

section Places

variable {α β : Type} {items : List α} {place : Nat} {old : α}

theorem perm_cons_eraseIdx (isOld : items[place]? = some old) :
    items.Perm (old :: items.eraseIdx place) := by
  obtain ⟨within, isThere⟩ := List.getElem?_eq_some_iff.mp isOld
  rw [← isThere]
  exact (List.getElem_cons_eraseIdx_perm within).symm

theorem set_perm_cons_eraseIdx (isOld : items[place]? = some old) (new : α) :
    (items.set place new).Perm (new :: items.eraseIdx place) :=
  List.set_perm_cons_eraseIdx (List.getElem?_eq_some_iff.mp isOld).1 new

theorem countP_set (isOld : items[place]? = some old) (new : α) (accepts : α → Bool) :
    (items.set place new).countP accepts + (accepts old).toNat =
      items.countP accepts + (accepts new).toNat := by
  have before := (perm_cons_eraseIdx isOld).countP_eq accepts
  have after := (set_perm_cons_eraseIdx isOld new).countP_eq accepts
  rw [List.countP_cons] at before after
  rw [before, after]
  cases accepts old <;> cases accepts new <;> simp

theorem count_flatMap_eraseIdx [BEq β] (isOld : items[place]? = some old) (change : α → List β)
    (item : β) :
    (items.flatMap change).count item =
      (change old).count item + ((items.eraseIdx place).flatMap change).count item := by
  have before := ((perm_cons_eraseIdx isOld).flatMap_right change).count_eq item
  rw [List.flatMap_cons, List.count_append] at before
  exact before

theorem count_flatMap_set [BEq β] (isOld : items[place]? = some old) (new : α)
    (change : α → List β) (item : β) :
    ((items.set place new).flatMap change).count item + (change old).count item =
      (items.flatMap change).count item + (change new).count item := by
  have before := count_flatMap_eraseIdx isOld change item
  have after := ((set_perm_cons_eraseIdx isOld new).flatMap_right change).count_eq item
  rw [List.flatMap_cons, List.count_append] at after
  omega

end Places

/-! ## One computation at a time -/

namespace FlattenNode

variable {before after : FlattenNode σ} {place : Nat} {worker : Worker}

/-- What is under way has exactly one worker that is busy with it; nothing else has one. -/
structure KeepsKeysApart (node : FlattenNode σ) : Prop where
  ordered : OrderedMap.IsOrdered node.inFlight
  busy : ∀ key, node.workers.countP (Worker.isBusyWith key) =
    (OrderedMap.contains key node.inFlight).toNat

theorem keepsKeysApart_of_idle {node : FlattenNode σ} (noWorkers : node.workers = [])
    (nothing : node.inFlight = []) : node.KeepsKeysApart where
  ordered := nothing ▸ List.Pairwise.nil
  busy := by
    intro key
    rw [noWorkers, nothing]
    rfl

/-- A worker that stays as busy as it was keeps the keys apart. -/
theorem KeepsKeysApart.setStage (apart : before.KeepsKeysApart) {stage : WorkerStage}
    (isWorker : before.workers[place]? = some worker)
    (workers : after.workers = before.workers.set place { worker with stage := stage })
    (inFlight : after.inFlight = before.inFlight)
    (asBusy : ({ worker with stage := stage } : Worker).isBusy = worker.isBusy) :
    after.KeepsKeysApart where
  ordered := by
    rw [inFlight]
    exact apart.ordered
  busy := by
    intro key
    have counted := countP_set isWorker { worker with stage := stage } (Worker.isBusyWith key)
    have asBusyWith : Worker.isBusyWith key { worker with stage := stage } =
        Worker.isBusyWith key worker := by
      simp only [Worker.isBusyWith, asBusy]
    have sameBusy := apart.busy key
    rw [asBusyWith] at counted
    rw [workers, inFlight]
    omega

/-- The worker that takes what waits under its key is no longer busy with it. -/
theorem KeepsKeysApart.took (apart : before.KeepsKeysApart) {stage : WorkerStage}
    (isWorker : before.workers[place]? = some worker)
    (workers : after.workers = before.workers.set place { worker with stage := stage })
    (inFlight : after.inFlight = OrderedMap.erase worker.key before.inFlight)
    (wasBusy : worker.isBusy = true)
    (notBusy : ({ worker with stage := stage } : Worker).isBusy = false) :
    after.KeepsKeysApart where
  ordered := by
    rw [inFlight]
    exact OrderedMap.isOrdered_erase worker.key apart.ordered
  busy := by
    intro key
    have sameBusy := apart.busy key
    have counted := countP_set isWorker { worker with stage := stage } (Worker.isBusyWith key)
    have wasBusyWith : Worker.isBusyWith key worker = decide (worker.key = key) := by
      rw [Worker.isBusyWith, wasBusy, Bool.true_and]
    have notBusyWith : Worker.isBusyWith key { worker with stage := stage } = false := by
      rw [Worker.isBusyWith, notBusy, Bool.false_and]
    rw [wasBusyWith, notBusyWith, Bool.toNat_false, Nat.add_zero] at counted
    rw [workers, inFlight]
    by_cases same : key = worker.key
    · -- The worker was counted, so that it was the only one: a key is counted at most once.
      have atMostOne := Bool.toNat_le (OrderedMap.contains key before.inFlight)
      have isAbsent : OrderedMap.contains key
          (OrderedMap.erase worker.key before.inFlight) = false := by
        rw [same]
        exact OrderedMap.contains_erase_self worker.key apart.ordered
      rw [decide_eq_true same.symm, Bool.toNat_true] at counted
      rw [isAbsent, Bool.toNat_false]
      omega
    · rw [decide_eq_false (Ne.symm same), Bool.toNat_false, Nat.add_zero] at counted
      rw [OrderedMap.contains_erase_of_ne same, counted, sameBusy]

/-- A request that is attached to a computation starts no worker. -/
theorem KeepsKeysApart.attached (apart : before.KeepsKeysApart) {key : FlattenKey}
    {waiters more : List Waiter}
    (isRunning : OrderedMap.find? key before.inFlight = some waiters)
    (workers : after.workers = before.workers)
    (inFlight : after.inFlight = OrderedMap.insert key more before.inFlight) :
    after.KeepsKeysApart where
  ordered := by
    rw [inFlight]
    exact OrderedMap.isOrdered_insert _ _ apart.ordered
  busy := by
    intro other
    rw [workers, inFlight, apart.busy other]
    by_cases same : other = key
    · rw [same, OrderedMap.contains_insert_self, OrderedMap.contains, isRunning]
      rfl
    · rw [OrderedMap.contains_insert_of_ne same]

/-- A request for something new starts the only worker that is busy with it. -/
theorem KeepsKeysApart.began (apart : before.KeepsKeysApart) {key : FlattenKey}
    {request : RequestId} {waiters : List Waiter}
    (isNew : OrderedMap.find? key before.inFlight = none)
    (workers : after.workers = before.workers ++ [⟨key, request, .started⟩])
    (inFlight : after.inFlight = OrderedMap.insert key waiters before.inFlight) :
    after.KeepsKeysApart where
  ordered := by
    rw [inFlight]
    exact OrderedMap.isOrdered_insert _ _ apart.ordered
  busy := by
    intro other
    rw [workers, inFlight, List.countP_append, List.countP_singleton, apart.busy other]
    by_cases same : other = key
    · rw [same, OrderedMap.contains_insert_self, OrderedMap.contains, isNew]
      simp [Worker.isBusyWith, Worker.isBusy]
    · rw [OrderedMap.contains_insert_of_ne same]
      simp [Worker.isBusyWith, Ne.symm same]

/-- A worker ends that is no longer busy. -/
theorem KeepsKeysApart.ended (apart : before.KeepsKeysApart)
    (isWorker : before.workers[place]? = some worker) (notBusy : worker.isBusy = false)
    (workers : after.workers = before.workers.eraseIdx place)
    (inFlight : after.inFlight = before.inFlight) : after.KeepsKeysApart where
  ordered := by
    rw [inFlight]
    exact apart.ordered
  busy := by
    intro key
    have counted := (perm_cons_eraseIdx isWorker).countP_eq (Worker.isBusyWith key)
    have notBusyWith : Worker.isBusyWith key worker = false := by
      rw [Worker.isBusyWith, notBusy, Bool.false_and]
    rw [List.countP_cons, notBusyWith, apart.busy key] at counted
    rw [workers, inFlight]
    exact counted.symm

end FlattenNode

namespace NodeHistory

theorem keepsKeysApart_follows {before after : NodeHistory σ} (apart : before.node.KeepsKeysApart)
    (follows : before.Follows after) : after.node.KeepsKeysApart := by
  cases follows with
  | attached isRunning => exact apart.attached isRunning rfl rfl
  | began isNew => exact apart.began isNew rfl rfl
  | read isWorker isRunning stage =>
      refine apart.setStage isWorker rfl rfl ?_
      simp only [Worker.isBusy, stage]
  | computed isWorker isRunning stage computes =>
      refine apart.setStage isWorker rfl rfl ?_
      simp only [Worker.isBusy, stage]
  | took isWorker isRunning stage =>
      refine apart.took isWorker rfl rfl ?_ rfl
      simp only [Worker.isBusy, stage]
  | reported isWorker isRunning stage =>
      refine apart.setStage isWorker rfl rfl ?_
      simp only [Worker.isBusy, stage]
  | ended isWorker isRunning stage =>
      refine apart.ended isWorker ?_ rfl rfl
      simp only [Worker.isBusy, stage]
  | idle tables content onlyForgets => exact ⟨apart.ordered, apart.busy⟩

/-! ## The ledger -/

/-- Every entry of an accepted request waits, has been taken by a worker, or was sent. -/
def IsBalanced (history : NodeHistory σ) : Prop :=
  ∀ entry, history.asked.count entry =
    (waitingIn history.node.inFlight).count entry +
      (history.node.workers.flatMap Worker.taken).count entry +
      (history.sent.map SentReport.entry).count entry

theorem count_asked_of_append {before after : NodeHistory σ} {moment : Nat}
    {request : FlattenRequest} (accepted : after.accepted = before.accepted ++ [(moment, request)])
    (entry : ReportEntry) :
    after.asked.count entry = before.asked.count entry + request.entries.count entry := by
  rw [asked, asked, accepted, List.flatMap_append, List.count_append, List.flatMap_singleton]

/-- Taking the waiting requests takes exactly their entries. -/
theorem count_takeWaiters (node : FlattenNode σ) (key : FlattenKey) (entry : ReportEntry) :
    (waitingIn node.inFlight).count entry =
      (waitingEntries key (node.takeWaiters key).1).count entry +
        (waitingIn (node.takeWaiters key).2.inFlight).count entry := by
  cases found : OrderedMap.find? key node.inFlight with
  | some waiters =>
      have waited := count_waitingIn found entry
      rw [FlattenNode.takeWaiters, found]
      exact waited
  | none =>
      rw [FlattenNode.takeWaiters, found, OrderedMap.erase_of_find?_eq_none found]
      simp [waitingEntries, FlattenNode.reportsFor]

/-- A worker that sends some of what it has taken keeps the balance. -/
theorem IsBalanced.setStage {before after : NodeHistory σ} (balanced : before.IsBalanced)
    {place : Nat} {worker changed : Worker} {newlySent : List SentReport}
    (isWorker : before.node.workers[place]? = some worker)
    (accepted : after.accepted = before.accepted)
    (inFlight : after.node.inFlight = before.node.inFlight)
    (workers : after.node.workers = before.node.workers.set place changed)
    (sent : after.sent = before.sent ++ newlySent)
    (kept : worker.taken = newlySent.map SentReport.entry ++ changed.taken) :
    after.IsBalanced := by
  intro entry
  have balance := balanced entry
  -- What the worker no longer holds is just what is added to the reports.
  have taken := count_flatMap_set isWorker changed Worker.taken entry
  rw [kept, List.count_append] at taken
  rw [asked] at balance
  rw [asked, accepted, inFlight, workers, sent, List.map_append, List.count_append]
  omega

theorem IsBalanced.follows {before after : NodeHistory σ} (balanced : before.IsBalanced)
    (apart : before.node.KeepsKeysApart) (follows : before.Follows after) : after.IsBalanced := by
  cases follows with
  | @attached request waiters isRunning =>
      intro entry
      have balance := balanced entry
      have waited := count_waitingIn isRunning entry
      have waits := count_waitingIn_insert apart.ordered request.key
        (waiters ++ [⟨request.id, request.notify⟩]) entry
      rw [waitingEntries_append, waitingEntries_request, List.count_append] at waits
      rw [count_asked_of_append rfl]
      change _ = (waitingIn (OrderedMap.insert request.key _ before.node.inFlight)).count entry +
        (before.node.workers.flatMap Worker.taken).count entry +
        (before.sent.map SentReport.entry).count entry
      omega
  | @began request isNew =>
      intro entry
      have balance := balanced entry
      have waits := count_waitingIn_insert apart.ordered request.key
        [⟨request.id, request.notify⟩] entry
      rw [waitingEntries_request, OrderedMap.erase_of_find?_eq_none isNew] at waits
      let starting : Worker := ⟨request.key, request.id, .started⟩
      have taken : ((before.node.workers ++ [starting]).flatMap Worker.taken).count entry =
          (before.node.workers.flatMap Worker.taken).count entry := by
        rw [List.flatMap_append, List.flatMap_singleton, List.count_append]
        rfl
      rw [count_asked_of_append rfl]
      change _ = (waitingIn (OrderedMap.insert request.key _ before.node.inFlight)).count entry +
        ((before.node.workers ++ [starting]).flatMap Worker.taken).count entry +
        (before.sent.map SentReport.entry).count entry
      omega
  | read isWorker isRunning stage =>
      refine balanced.setStage isWorker rfl rfl rfl (List.append_nil _).symm ?_
      simp only [Worker.taken, stage, List.map_nil, List.nil_append]
  | computed isWorker isRunning stage computes =>
      refine balanced.setStage isWorker rfl rfl rfl (List.append_nil _).symm ?_
      simp only [Worker.taken, stage, List.map_nil, List.nil_append]
  | @took place number worker result isWorker isRunning stage =>
      intro entry
      have balance := balanced entry
      have waited := count_takeWaiters before.node worker.key entry
      let reporting := WorkerStage.reporting result
        (FlattenNode.reportsFor (before.node.takeWaiters worker.key).1)
      have taken := count_flatMap_set isWorker { worker with stage := reporting } Worker.taken entry
      have nothingTaken : worker.taken = [] := by
        simp only [Worker.taken, stage]
      have takes : ({ worker with stage := reporting } : Worker).taken =
          waitingEntries worker.key (before.node.takeWaiters worker.key).1 := rfl
      rw [nothingTaken, takes, List.count_nil] at taken
      change before.asked.count entry =
        (waitingIn (before.node.takeWaiters worker.key).2.inFlight).count entry +
        ((before.node.workers.set place { worker with stage := reporting }).flatMap
          Worker.taken).count entry +
        (before.sent.map SentReport.entry).count entry
      omega
  | reported isWorker isRunning stage =>
      refine balanced.setStage isWorker rfl rfl rfl rfl ?_
      simp only [Worker.taken, stage]
      rfl
  | @ended place number worker result isWorker isRunning stage =>
      intro entry
      have balance := balanced entry
      have taken := count_flatMap_eraseIdx isWorker Worker.taken entry
      have nothingLeft : worker.taken = [] := by
        simp only [Worker.taken, stage, List.map_nil]
      rw [nothingLeft, List.count_nil, Nat.zero_add] at taken
      rw [taken] at balance
      exact balance
  | idle tables content onlyForgets => exact balanced

/-! ## Results -/

/-- A computation has one result, which all of its reports carry, and a flattening is named by the
request that started it. -/
structure IsSettled (history : NodeHistory σ) : Prop where
  sent : ∀ report ∈ history.sent, ∃ computation : Computation,
    history.computations[report.computation]? = some computation ∧
    computation.result = some report.delivery.report.result ∧
    computation.starter.key = report.key
  named : ∀ computation ∈ history.computations, ∀ id,
    computation.result = some (.flattened id) → id = computation.starter.id

theorem isSettled_new (id : NodeId) (settings : FlattenSettings) (bounds : CacheSettings)
    (store : Option (KeyedStore σ)) (content : σ) :
    (new id settings bounds store content).IsSettled where
  sent := by
    intro report isSent
    cases isSent
  named := by
    intro computation isComputation
    cases isComputation

theorem IsSettled.follows {before after : NodeHistory σ} (settled : before.IsSettled)
    (numbers : before.NumbersWorkers) (follows : before.Follows after) : after.IsSettled := by
  have stillSent : ∀ report ∈ before.sent, ∃ computation : Computation,
      after.computations[report.computation]? = some computation ∧
      computation.result = some report.delivery.report.result ∧
      computation.starter.key = report.key := by
    intro report isSent
    obtain ⟨computation, isComputation, result, key⟩ := settled.sent report isSent
    obtain ⟨later, isLater, continues⟩ := follows.continues numbers isComputation
    exact ⟨later, isLater, continues.result _ result, continues.starter ▸ key⟩
  have named := settled.named
  cases follows with
  | attached isRunning => exact ⟨stillSent, named⟩
  | @began request isNew =>
      refine ⟨stillSent, ?_⟩
      intro computation isComputation id isFlattened
      rcases List.mem_append.mp isComputation with isOld | isNew
      · exact named computation isOld id isFlattened
      · rw [List.mem_singleton.mp isNew] at isFlattened
        cases isFlattened
  | read isWorker isRunning stage =>
      refine ⟨stillSent, ?_⟩
      intro computation isComputation id isFlattened
      rcases mem_modify isComputation with isOld | ⟨old, isOld, isChanged⟩
      · exact named computation isOld id isFlattened
      · rw [isChanged] at isFlattened ⊢
        exact named old (List.mem_of_getElem? isOld) id isFlattened
  | computed isWorker isRunning stage computes =>
      refine ⟨stillSent, ?_⟩
      intro computation isComputation id isFlattened
      rcases mem_modify isComputation with isOld | ⟨old, isOld, isChanged⟩
      · exact named computation isOld id isFlattened
      · have fits := numbers.fits_of isWorker isRunning isOld
        rw [isChanged] at isFlattened ⊢
        cases isFlattened
        exact computes.eq_request.trans fits.request
  | took isWorker isRunning stage => exact ⟨stillSent, named⟩
  | @reported place number worker result request target remaining reaches isWorker isRunning
      stage =>
      refine ⟨?_, named⟩
      intro report isSent
      rcases List.mem_append.mp isSent with wasSent | isNew
      · exact stillSent report wasSent
      · rw [List.mem_singleton.mp isNew]
        obtain ⟨computation, isComputation, fits⟩ := numbers.fits _ _ _ isWorker isRunning
        have known := fits.stage
        rw [stage] at known
        exact ⟨computation, isComputation, known, fits.key.symm⟩
  | ended isWorker isRunning stage => exact ⟨stillSent, named⟩
  | idle tables content onlyForgets => exact ⟨stillSent, named⟩

/-! ## Counters -/

/-- Every accepted request has started a computation or was merged into one. -/
structure IsCounted (history : NodeHistory σ) : Prop where
  started : history.node.startedCount = history.computations.length
  accepted : history.node.startedCount + history.node.mergedCount = history.accepted.length

theorem IsCounted.follows {before after : NodeHistory σ} (counted : before.IsCounted)
    (follows : before.Follows after) : after.IsCounted := by
  have started := counted.started
  have accepted := counted.accepted
  cases follows with
  | attached isRunning =>
      refine ⟨started, ?_⟩
      change before.node.startedCount + (before.node.mergedCount + 1) =
        (before.accepted ++ [_]).length
      rw [List.length_append, List.length_singleton]
      omega
  | began isNew =>
      constructor
      · change before.node.startedCount + 1 = (before.computations ++ [_]).length
        rw [List.length_append, List.length_singleton, started]
      · change before.node.startedCount + 1 + before.node.mergedCount =
          (before.accepted ++ [_]).length
        rw [List.length_append, List.length_singleton]
        omega
  | read isWorker isRunning stage => exact ⟨started.trans (List.length_modify _ _ _).symm, accepted⟩
  | computed isWorker isRunning stage computes =>
      exact ⟨started.trans (List.length_modify _ _ _).symm, accepted⟩
  | took isWorker isRunning stage => exact ⟨started, accepted⟩
  | reported isWorker isRunning stage => exact ⟨started, accepted⟩
  | ended isWorker isRunning stage => exact ⟨started, accepted⟩
  | idle tables content onlyForgets => exact ⟨started, accepted⟩

/-! ## All events -/

section Events

variable (id : NodeId) (settings : FlattenSettings) (bounds : CacheSettings)
  (store : Option (KeyedStore σ)) (content : σ) (events : List (NodeEvent σ))

theorem keepsKeysApart_run :
    ((new id settings bounds store content).run events).node.KeepsKeysApart := by
  let holds := fun history : NodeHistory σ => history.node.KeepsKeysApart
  have atStart : holds (new id settings bounds store content) :=
    FlattenNode.keepsKeysApart_of_idle rfl rfl
  exact run_induction atStart
    (fun _ _ _ apart follows => keepsKeysApart_follows apart follows) events

theorem isBalanced_run : ((new id settings bounds store content).run events).IsBalanced := by
  let holds := fun history : NodeHistory σ =>
    history.node.KeepsKeysApart ∧ history.IsBalanced
  have both : holds ((new id settings bounds store content).run events) := by
    refine run_induction ⟨FlattenNode.keepsKeysApart_of_idle rfl rfl, fun _ => rfl⟩ ?_ events
    intro before after _ held follows
    exact ⟨keepsKeysApart_follows held.1 follows, held.2.follows held.1 follows⟩
  exact both.2

theorem isSettled_run : ((new id settings bounds store content).run events).IsSettled :=
  run_induction (isSettled_new id settings bounds store content)
    (fun _ _ numbers settled follows => settled.follows numbers follows) events

theorem isCounted_run : ((new id settings bounds store content).run events).IsCounted :=
  run_induction ⟨rfl, rfl⟩ (fun _ _ _ counted follows => counted.follows follows) events

end Events

/-- The ledger, with what has reached its target apart from what could not be delivered. -/
theorem IsBalanced.asked_perm {history : NodeHistory σ} (balanced : history.IsBalanced) :
    history.asked.Perm
      (waitingIn history.node.inFlight ++ history.node.workers.flatMap Worker.taken ++
        history.arrived ++ history.dropped) := by
  have sent : (history.arrived ++ history.dropped).Perm (history.sent.map SentReport.entry) := by
    rw [arrived, dropped, ← List.map_append]
    exact (List.filter_append_perm SentReport.hasArrived history.sent).map SentReport.entry
  apply List.perm_iff_count.mpr
  intro entry
  rw [balanced entry, ← sent.count_eq entry]
  simp only [List.count_append]
  omega

/-- However requests, workers and changes of tables and of the store are interleaved: a computation
is under way exactly if it has one busy worker; every entry of every accepted request waits, is
taken, has arrived or was dropped, and only one of these; all reports of a computation agree, and
name a flattening after the request that started it; and every request was counted once. -/
theorem reports_exactly_once (id : NodeId) (settings : FlattenSettings) (bounds : CacheSettings)
    (store : Option (KeyedStore σ)) (content : σ) (events : List (NodeEvent σ)) :
    let history := (new id settings bounds store content).run events
    (∀ key, history.node.workers.countP (Worker.isBusyWith key) =
      (OrderedMap.contains key history.node.inFlight).toNat) ∧
    history.asked.Perm
      (waitingIn history.node.inFlight ++ history.node.workers.flatMap Worker.taken ++
        history.arrived ++ history.dropped) ∧
    (∀ first ∈ history.sent, ∀ second ∈ history.sent, first.computation = second.computation →
      first.delivery.report.result = second.delivery.report.result) ∧
    (∀ report ∈ history.sent, ∃ computation : Computation,
      history.computations[report.computation]? = some computation ∧
      computation.starter.key = report.key ∧
      ∀ flattenId, report.delivery.report.result = .flattened flattenId →
        flattenId = computation.starter.id) ∧
    history.node.startedCount = history.computations.length ∧
    history.node.startedCount + history.node.mergedCount = history.accepted.length := by
  intro history
  have apart : history.node.KeepsKeysApart :=
    keepsKeysApart_run id settings bounds store content events
  have balanced : history.IsBalanced := isBalanced_run id settings bounds store content events
  have settled : history.IsSettled := isSettled_run id settings bounds store content events
  have counted : history.IsCounted := isCounted_run id settings bounds store content events
  refine ⟨apart.busy, balanced.asked_perm, ?_, ?_, counted.started, counted.accepted⟩
  · intro first isFirst second isSecond same
    obtain ⟨firstComputation, isFirstComputation, firstResult, _⟩ := settled.sent first isFirst
    obtain ⟨secondComputation, isSecondComputation, secondResult, _⟩ :=
      settled.sent second isSecond
    rw [same, isSecondComputation] at isFirstComputation
    cases isFirstComputation
    exact Option.some.inj (firstResult.symm.trans secondResult)
  · intro report isSent
    obtain ⟨computation, isComputation, result, key⟩ := settled.sent report isSent
    refine ⟨computation, isComputation, key, ?_⟩
    intro flattenId isFlattened
    rw [isFlattened] at result
    exact settled.named computation (List.mem_of_getElem? isComputation) flattenId result

/-- Two requests for a table that there is not, of which one target cannot be reached. -/
example :
    let asked : List FlattenRequest :=
      [⟨.ofNat 1, "t", "a[*]", [⟨8⟩, ⟨9⟩]⟩, ⟨.ofNat 2, "t", "a[*]", [⟨9⟩]⟩]
    let history := (new ⟨1⟩ {} {} none ()).run
      (asked.map .accepted ++ [true, true, true, false, true, true, true].map (.worked 0 0))
    history.sent.length = 3 ∧ history.dropped = [(⟨"t", "a[*]"⟩, .ofNat 1, ⟨8⟩)] ∧
      history.node.workers.length = 0 ∧ history.node.mergedCount = 1 := by
  decide +kernel

end NodeHistory

end Unnest
