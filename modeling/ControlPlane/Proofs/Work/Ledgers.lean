import ControlPlane.Proofs.Concurrent.RecordedAnswers
import ControlPlane.Proofs.Concurrent.Schedule
import ControlPlane.Proofs.Store.OpenItemIndex
import ControlPlane.Simulation.Order

/-!
# Many ledgers over one store

Work is begun, planned and ended through the ledgers of any number of nodes, and items that were
left open are closed behind their backs, all in any order. Items and index stay in step, no item is
lost, and whoever holds the lock of a machine can begin work on it exactly if nobody has any open.
-/

namespace ControlPlane.Concurrent
open Work Control Simulation

/-- What somebody does with a ledger. -/
inductive Errand where
  /-- Begins work on a machine, notes plans, and lets go of the work in one way or another. -/
  | work (node : Node) (vm : VmId) (operation : Work.Operation) (plan : Option Plan)
      (plans : List Plan) (how : Closing) (ends : how ≠ .finish .started)
  /-- Closes an item on behalf of whoever began it. -/
  | recovery (node : NodeId) (item : Item) (step : Work.Step) (closes : step ≠ .started)

def recordPlans (item : Item) : List Plan → Procedure Unit
  | [] => return ()
  | plan :: plans => do
    recordPlan item plan
    recordPlans item plans

namespace Errand

def program : Errand → Program surroundings (Except Failure Unit)
  | work node vm operation plan plans how _ => (do
      let item ← Work.start node vm operation plan
      recordPlans item plans
      closing ⟨node, item⟩ how : Procedure Unit).run
  | recovery _ item step _ => (do let _ ← closeRecovered item step : Procedure Unit).run

def node : Errand → NodeId
  | work node .. => node.id
  | recovery node .. => node

end Errand

def errands : Workload Errand (Except Failure Unit) := ⟨Errand.program, Errand.node⟩

/-- Items and index are in step, and no identifier was given out twice. -/
structure Filed (s : Shared) : Prop where
  inStep : s.store.InStep
  stamps : ∀ {id i j}, s.Drew i id → s.Drew j id → i = j

/-- Others lose no item, and they open none under an identifier of the job. -/
structure Heeds (job : Nat) (a b : Shared) : Prop where
  retains : a.store.Retains b.store
  drew : ∀ {id}, a.Drew job id → b.Drew job id
  unknown : ∀ {id}, a.Drew job id → a.store.item? id = none → b.store.item? id = none

theorem Heeds.of_store {job : Nat} {a b : Shared} (store : b.store = a.store)
    (drew : ∀ {id}, a.Drew job id → b.Drew job id) : Heeds job a b where
  retains := store ▸ .refl a.store
  drew := drew
  unknown _ unknown := store ▸ unknown

theorem Heeds.trans {job : Nat} {a b c : Shared} (h : Heeds job a b) (h' : Heeds job b c) :
    Heeds job a c where
  retains := h.retains.trans h'.retains
  drew drew := h'.drew (h.drew drew)
  unknown drew unknown := h'.unknown (h.drew drew) (h.unknown drew unknown)

def bookkeeping (job : Nat) : Contract where
  job := job
  invariant := Filed
  rely := Heeds job
  allow a b := (∀ k, k ≠ job → Heeds k a b) ∧ Filed b
  fit _ _ _ := True
  rely_refl _ := .of_store rfl id
  rely_trans := .trans
  allow_refl h := ⟨fun _ _ => .of_store rfl id, h⟩

variable {job : Nat} {s s' : Shared} {t : Transaction} {past : List Exchange} {item : Item}
  {node : Node} {v : VmId} {T : List Exchange → Prop}

theorem Filed.apply (h : Filed s) (files : t.Files s.store) :
    Filed { s with store := (t.apply s.store).2 } := ⟨files.inStep h.inStep, h.stamps⟩

theorem Filed.draw (h : Filed s) {id : Uuid} (fresh : s.Fresh id) :
    Filed { s with stamps := ⟨id, job⟩ :: s.stamps } := by
  refine ⟨h.inStep, fun {id' i j} mine theirs => ?_⟩
  rcases List.mem_cons.1 mine with mine | mine <;>
    rcases List.mem_cons.1 theirs with theirs | theirs
  · cases mine
    cases theirs
    rfl
  · cases mine
    exact absurd rfl (fresh.2 _ theirs)
  · cases theirs
    exact absurd rfl (fresh.2 _ mine)
  · exact h.stamps mine theirs

theorem allow_of_files (h : Filed s) (files : t.Files s.store)
    (opens : ∀ item, t = .openItem item → s.Drew job item.id) :
    (bookkeeping job).allow s { s with store := (t.apply s.store).2 } := by
  refine ⟨fun k ne => ⟨files.retains, id, fun drew unknown => ?_⟩, h.apply files⟩
  -- An item that is opened here has an identifier of this job, so that no other job has drawn it.
  refine files.unknown unknown fun item e same => ?_
  exact ne (h.stamps drew (same ▸ opens item e))

theorem stable_past : Stable (bookkeeping job) fun past _ => T past := fun _ _ _ _ _ h => h

def OnFile (item : Item) (T : List Exchange → Prop) : Assertion :=
  fun past s => (∃ x, s.store.item? item.id = some x) ∧ T past

/-- The job has drawn the identifier of an item, and the item is not in the store. -/
def ToBeFiled (job : Nat) (item : Item) : Assertion :=
  fun _ s => s.Drew job item.id ∧ s.store.item? item.id = none

theorem stable_onFile : Stable (bookkeeping job) (OnFile item T) := by
  rintro past s s' heeds - ⟨⟨x, stored⟩, known⟩
  obtain ⟨x', stored', -⟩ := heeds.retains _ x stored
  exact ⟨⟨x', stored'⟩, known⟩

theorem stable_toBeFiled : Stable (bookkeeping job) (ToBeFiled job item) := by
  rintro past s s' heeds - ⟨drew, unknown⟩
  exact ⟨heeds.drew drew, heeds.unknown drew unknown⟩

def Tried (node : Node) (v : VmId) (granted : Prop) (past : List Exchange) : Prop :=
  ∃ item before, item.vm = v ∧ item.owner = node.id ∧
    ⟨.transact (.openItem item), (before.openItem item).1, before⟩ ∈ past ∧
    (granted ↔ before.Unused v)

theorem Tried.append {granted : Prop} {e : Exchange} (h : Tried node v granted past) :
    Tried node v granted (past ++ [e]) := by
  obtain ⟨item, before, here, owner, mem, free⟩ := h
  exact ⟨item, before, here, owner, List.mem_append_left _ mem, free⟩

theorem Tried.congr {granted granted' : Prop} (h : Tried node v granted past)
    (same : granted' ↔ granted) :
    Tried node v granted' past := by
  obtain ⟨item, before, here, owner, mem, free⟩ := h
  exact ⟨item, before, here, owner, mem, same.trans free⟩

/-- A part that cannot fail, and what it leaves. -/
abbrev Surely {α : Type} (P : Assertion) : Except Failure α → Assertion :=
  Ends (fun _ => P) fun _ _ => False

section
variable {P R : Assertion} {α β : Type}

theorem Safe.surely {x : Procedure α} {f : α → Procedure β}
    {Q : Except Failure β → Assertion} (h : Safe (bookkeeping job) (Surely P) x.run past s)
    (next : ∀ a past s, P past s → Safe (bookkeeping job) Q (f a).run past s) :
    Safe (bookkeeping job) Q (x >>= f).run past s :=
  Safe.andThen h next fun _ _ _ => False.elim

theorem books_clock (stable : Stable (bookkeeping job) P)
    (grows : ∀ {past s e}, P past s → P (past ++ [e]) s) (h : P past s) :
    Safe (bookkeeping job) (Surely P) (Procedure.ask .now).run past s := by
  refine Safe.ask stable (fun _ => rfl) h fun s h inv => ⟨trivial, ?_⟩
  rintro _ _ rfl
  exact ⟨(bookkeeping job).allow_refl inv, grows h⟩

theorem books_files (stable : Stable (bookkeeping job) P)
    (files : ∀ {past s}, P past s → t.Files s.store) (opens : ∀ item, t ≠ .openItem item)
    (after : ∀ {past s e}, P past s → s.store.Retains (t.apply s.store).2 →
      R (past ++ [e]) { s with store := (t.apply s.store).2 }) (h : P past s) :
    Safe (bookkeeping job) (Surely R) (Procedure.transact t).run past s := by
  refine Safe.transact stable h fun s h inv =>
    ⟨trivial, fun _ => ⟨?_, after h (files h).retains⟩⟩
  exact allow_of_files inv (files h) fun item e => absurd e (opens item)

theorem books_unlock {name : LockName} {how : Release} (stable : Stable (bookkeeping job) P)
    (after : ∀ {past s e locks}, P past s → R (past ++ [e]) { s with locks := locks })
    (h : P past s) :
    Safe (bookkeeping job) (Surely R) (Procedure.ask (.unlock name how)).run past s := by
  refine Safe.ask stable (fun _ => rfl) h fun s h inv => ⟨trivial, ?_⟩
  rintro ⟨⟩ _ rfl
  exact ⟨⟨fun _ _ => .of_store rfl id, inv.inStep, inv.stamps⟩, after h⟩

end

section
variable (grows : ∀ {past e}, T past → T (past ++ [e]))
include grows

theorem OnFile.append {e : Exchange} (h : OnFile item T past s) : OnFile item T (past ++ [e]) s :=
  ⟨h.1, grows h.2⟩

theorem OnFile.retained {e : Exchange} (h : OnFile item T past s)
    (retains : s.store.Retains (t.apply s.store).2) :
    OnFile item T (past ++ [e]) { s with store := (t.apply s.store).2 } := by
  obtain ⟨⟨x, stored⟩, known⟩ := h
  obtain ⟨x', stored', -⟩ := retains _ x stored
  exact ⟨⟨x', stored'⟩, grows known⟩

theorem books_recordPlans (plans : List Plan) (h : OnFile item T past s) :
    Safe (bookkeeping job) (Surely (OnFile item T)) (recordPlans item plans).run past s := by
  induction plans generalizing past s with
  | nil => exact h
  | cons plan plans ih =>
    refine Safe.surely (P := OnFile item T) ?_ fun _ _ _ => ih
    refine Safe.surely (books_clock stable_onFile (.append grows) h) fun now past s h => ?_
    exact books_files stable_onFile (fun h => h.1) (fun _ e => nomatch e) (.retained grows) h

theorem books_closing {how : Closing} (ends : how ≠ .finish .started) (h : OnFile item T past s) :
    Safe (bookkeeping job) (Surely fun past _ => T past)
      (closing ⟨node, item⟩ how).run past s := by
  cases how with
  | finish step =>
    refine Safe.surely (books_clock stable_onFile (.append grows) h) fun now past s h => ?_
    refine Safe.surely (books_files (R := OnFile item T) stable_onFile ?_ (fun _ e => nomatch e)
      (.retained grows) h)
      fun _ past s h => books_unlock stable_onFile (fun h => grows h.2) h
    exact fun h => ⟨h.1, fun e => ends (congrArg Closing.finish e)⟩
  | abandon => exact books_unlock stable_onFile (fun h => grows h.2) h
  | drop => exact books_unlock stable_onFile (fun h => grows h.2) h

end

theorem books_closeRecovered {step : Work.Step} (closes : step ≠ .started) :
    Safe (bookkeeping job) Anyhow (closeRecovered item step).run past s := by
  refine Safe.surely (books_clock (P := Anyhow ()) (stable_anyhow ()) (fun _ => trivial) trivial)
    fun now past s _ => ?_
  refine Safe.mono (books_files (P := Anyhow ()) (R := Anyhow ()) (stable_anyhow ()) ?_
    (fun _ e => nomatch e) (fun _ _ => trivial) trivial) fun _ _ _ _ => trivial
  exact fun _ => closes

def Granted (node : Node) (v : VmId) (past : List Exchange) : Prop :=
  ∃ before, ⟨.lock (lockName node v), true, before⟩ ∈ past

theorem books_lock :
    Safe (bookkeeping job) (Ends (fun _ _ _ => True) fun past _ => ¬ Granted node v past)
      (Work.lock node v).run [] s := by
  intro s₁ _ inv₁
  refine ⟨⟨fun _ _ => .of_store rfl id, inv₁.inStep, inv₁.stamps⟩,
    fun s₂ _ inv₂ => ?_⟩
  refine ⟨trivial, fun reply s₃ answers => ?_⟩
  cases reply with
  | true =>
    obtain ⟨-, rfl⟩ := answers
    exact ⟨(bookkeeping job).allow_refl inv₂, trivial⟩
  | false =>
    obtain ⟨-, rfl⟩ := answers
    refine ⟨⟨fun _ _ => .of_store rfl id, inv₂.inStep, inv₂.stamps⟩, ?_⟩
    rintro ⟨before, mem⟩
    cases List.mem_singleton.1 mem

theorem books_draw (item : Uuid → Item) (named : ∀ id, (item id).id = id) :
    Safe (bookkeeping job) (Ends (fun id => ToBeFiled job (item id)) fun _ _ => False)
      (Procedure.ask .freshId).run past s := by
  refine Safe.ask (P := Anyhow ()) (stable_anyhow ()) (fun _ => rfl) trivial
    fun s _ inv => ⟨trivial, ?_⟩
  rintro id _ ⟨fresh, rfl⟩
  refine ⟨⟨fun k _ => .of_store rfl fun drew => List.mem_cons_of_mem _ drew,
    inv.draw fresh⟩, ?_⟩
  simp only [Ends, ToBeFiled, named]
  exact ⟨List.mem_cons_self, fresh.1⟩

/-- An item is opened exactly if nobody has one open for its machine. -/
theorem books_openItem (isOpen : item.Open) (owner : item.owner = node.id)
    (h : ToBeFiled job item past s) :
    Safe (bookkeeping job) (Ends (fun _ => OnFile item (Tried node item.vm True))
        fun past _ => Tried node item.vm False past)
      (do Procedure.pass .beginWork; Procedure.demand (.transact (.openItem item)) rfl :
        Procedure Unit).run past s := by
  refine Safe.surely (P := ToBeFiled job item)
    (Safe.call stable_toBeFiled (fun _ => rfl) h fun s h inv => ⟨trivial, ?_⟩) ?_
  · rintro _ _ ⟨rfl, rfl⟩
    exact ⟨(bookkeeping job).allow_refl inv, h⟩
  rintro _ past s h
  refine Safe.carry (f := .done) stable_toBeFiled h (fun _ _ _ => trivial) fun s h inv _ => ?_
  have files : Transaction.Files s.store (.openItem item) := ⟨h.2, isOpen⟩
  have tried : ∀ {granted : Prop}, (granted ↔ s.store.Unused item.vm) →
    Tried node item.vm granted
      (past ++ [⟨.transact (.openItem item), (s.store.openItem item).1, s.store⟩]) :=
    fun free => ⟨item, s.store, rfl, owner, by simp, free⟩
  refine ⟨allow_of_files inv files fun _ e => ?_, ?_⟩
  · cases e
    exact h.1
  cases slot : s.store.openItem? item.vm with
  | none =>
    have opened : s.store.openItem item = (.ok (), { s.store.putItem item with
        active := s.store.active.insert ⟨item.vm, item.id⟩ }) := by
      simp only [Store.openItem, slot]
    have stored : (s.store.openItem item).2.item? item.id = some item := by
      rw [opened]
      exact (Store.item?_putItem s.store item item.id).trans (if_pos rfl)
    have free := iff_of_true trivial (inv.inStep.unused_iff.1 slot)
    replace tried := tried free
    simp only [Transaction.apply, opened] at tried stored ⊢
    exact ⟨⟨item, stored⟩, tried⟩
  | some other =>
    have refused : s.store.openItem item =
      (.error (.conflict item.vm (.workOpen other)), s.store) := by
      simp only [Store.openItem, slot]
    have taken : ¬ s.store.Unused item.vm := by
      rw [← inv.inStep.unused_iff, slot]
      rintro ⟨⟩
    replace tried := tried (iff_of_false id taken)
    simp only [Transaction.apply, refused] at tried ⊢
    exact tried

theorem books_start {operation : Work.Operation} {plan : Option Plan} :
    Safe (bookkeeping job) (Ends (fun item => OnFile item (Tried node v True))
        fun past _ => Granted node v past → Tried node v False past)
      (Work.start node v operation plan).run [] s := by
  refine Safe.andThen books_lock ?_ fun _ _ _ refused granted => absurd granted refused
  intro _ past s _
  refine Safe.surely (books_clock (P := Anyhow ()) (stable_anyhow ()) (fun _ => trivial) trivial)
    fun now past s _ => ?_
  refine Safe.andThen
    (books_draw (fun id => ⟨id, v, node.id, .started, operation, plan, now, now⟩)
      fun _ => rfl) ?_ fun _ _ _ => False.elim
  intro id past s h
  refine Safe.andThen
    (Q := Ends (fun _ => OnFile ⟨id, v, node.id, .started, operation, plan, now, now⟩
      (Tried node v True)) fun past _ => Tried node v False past) ?_
      (fun _ _ _ h => h) fun _ _ _ h _ => h
  refine Safe.tryCatch (books_openItem rfl rfl h) (fun _ _ _ h => h) fun failure past s h => ?_
  exact Safe.surely (books_unlock (P := fun past _ => Tried node v False past)
    stable_past .append h)
    fun _ _ _ h => h

/-- How an errand ends: whoever was granted the lock has tried to begin work, and if that was
possible, the rest has gone well. -/
def Errand.Ends : Errand → Except Failure Unit → Assertion
  | .work node v .., result =>
    fun past _ => Granted node v past → Tried node v (result = .ok ()) past
  | .recovery .., _ => fun _ _ => True

theorem books_errand (errand : Errand) :
    Safe (bookkeeping job) errand.Ends errand.program [] s := by
  cases errand with
  | work node v operation plan plans how ends =>
    refine Safe.andThen books_start (fun item past s h => ?_)
      fun _ _ _ h granted => (h granted).congr (iff_of_false nofun fun no => no)
    refine Safe.surely (books_recordPlans .append plans h) fun _ past s h => ?_
    refine (books_closing .append ends h).mono fun result past s h => ?_
    cases result with
    | ok _ => exact fun _ => Tried.congr h (iff_of_true rfl trivial)
    | error failure => exact h.elim
  | recovery node item step closes =>
    exact Safe.andThen (books_closeRecovered closes) (fun _ _ _ _ => trivial) fun _ _ _ _ => trivial

structure InOrder (sys : System Errand (Except Failure Unit)) : Prop where
  filed : Filed sys.shared
  numbered : sys.Numbered
  jobs : ∀ job ∈ sys.jobs, Adheres (bookkeeping job.number) job.task.Ends job sys.shared

namespace InOrder
variable {sys sys' : System Errand (Except Failure Unit)}
  {mover moved : Job Errand (Except Failure Unit)}

theorem start {store : Store} (inStep : store.InStep) : InOrder (System.start store) where
  filed := ⟨inStep, fun drew => absurd drew List.not_mem_nil⟩
  numbered := .start store
  jobs _ mem := absurd mem List.not_mem_nil

theorem stable_ends (errand : Errand) (result : Except Failure Unit) :
    Stable (bookkeeping job) (errand.Ends result) := by
  cases errand <;> exact fun _ _ _ _ _ h => h

theorem launch (h : InOrder sys) (errand : Errand) : InOrder (sys.launch errands errand) := by
  refine ⟨h.filed, h.numbered.step (.launch sys errand), fun job mem => ?_⟩
  rcases List.mem_cons.1 mem with rfl | mem
  · exact ⟨fun _ => books_errand errand, nofun⟩
  · exact h.jobs job mem

theorem advance (h : InOrder sys) (advance : Advance sys sys' mover moved) :
    InOrder sys' ∧ sys.shared.store.Retains sys'.shared.store := by
  obtain ⟨⟨heeds, filed⟩, adheres⟩ :=
    advance.adheres rfl h.filed (h.jobs mover advance.mem.1)
  refine ⟨⟨filed, advance.numbered h.numbered, fun job mem => ?_⟩,
    (heeds _ (Nat.succ_ne_self _)).retains⟩
  rcases advance.kept mem with rfl | there
  · rwa [← advance.task, ← advance.number] at adheres
  · have heeds := heeds job.number (advance.bystander h.numbered there mem)
    exact (h.jobs job there).of_rely (stable_ends job.task) heeds filed

/-- Whatever happens next, nothing gets into disorder and no item is lost. -/
theorem move (h : InOrder sys) (move : Move errands sys sys') :
    InOrder sys' ∧ sys.shared.store.Retains sys'.shared.store := by
  cases move with
  | step step =>
    rcases step.advances with ⟨errand, rfl⟩ | ⟨mover, moved, advance⟩
    · exact ⟨h.launch errand, .refl _⟩
    · exact h.advance advance
  | crash node =>
    have filed : Filed (sys.crash errands node).shared := ⟨h.filed.inStep, h.filed.stamps⟩
    refine ⟨⟨filed, h.numbered.move (.crash node), fun job mem => ?_⟩, .refl _⟩
    have heeds : Heeds job.number sys.shared (sys.crash errands node).shared :=
      .of_store rfl fun drew => drew
    exact (h.jobs job (List.mem_filter.1 mem).1).of_rely (stable_ends job.task) heeds filed

theorem reaches (h : InOrder sys) (reached : Reaches errands sys sys') :
    InOrder sys' ∧ sys.shared.store.Retains sys'.shared.store := by
  induction reached with
  | refl => exact ⟨h, .refl _⟩
  | tail _ move ih =>
    obtain ⟨inOrder, retains⟩ := ih.1.move move
    exact ⟨inOrder, ih.2.trans retains⟩

end InOrder

/-- Work begins exactly if nobody has any open on the machine: so each request to open an item was
answered, and so has ended whoever was granted the lock. -/
structure BeginsByRule (job : Job Errand (Except Failure Unit)) : Prop where
  answers : ∀ item reply before, ⟨.transact (.openItem item), reply, before⟩ ∈ job.past →
    (reply = .ok () ↔ before.Unused item.vm)
  ends : ∀ node v operation plan plans how ends result,
    job.task = .work node v operation plan plans how ends → job.program = .done result →
      Granted node v job.past → Tried node v (result = .ok ()) job.past

/-- Whatever is done with the ledgers of any number of nodes, and wherever their processes end: a
machine has at most one open item, and the index names exactly the open items. No item is ever lost,
and it keeps its machine, its owner, its operation and the time of its creation; once closed, it
stays closed. Whoever holds the lock of a machine can begin work on it exactly if no node has work
open on it. -/
theorem ledgers_stay_in_step {store : Store} (inStep : store.InStep)
    {sys sys' : System Errand (Except Failure Unit)} (reached : Reaches errands (.start store) sys)
    (later : Reaches errands sys sys') :
    (∀ {i j x y}, sys.shared.store.item? i = some x → sys.shared.store.item? j = some y →
      x.vm = y.vm → x.Open → y.Open → x = y) ∧
    (∀ v id, sys.shared.store.openItem? v = some id ↔
      ∃ x, sys.shared.store.item? id = some x ∧ x.vm = v ∧ x.Open) ∧
    sys.shared.store.Retains sys'.shared.store ∧ ∀ job ∈ sys.jobs, BeginsByRule job := by
  have inOrder : ∀ {sys}, Reaches errands (.start store) sys → InOrder sys :=
    fun reached => ((InOrder.start inStep).reaches reached).1
  have now := inOrder reached
  refine ⟨now.filed.inStep.unique, now.filed.inStep, (now.reaches later).2,
    fun job mem => ⟨?_, ?_⟩⟩
  · intro item reply before asked
    refine exchanges_of_reaches (I := Filed) (F := fun e => ∀ item reply before,
      e = ⟨.transact (.openItem item), reply, before⟩ →
      (reply = .ok () ↔ before.Unused item.vm))
      (fun reached => (inOrder reached).filed) ?_ reached job mem _ asked item reply before rfl
    rintro s s' job r reply' filed answers item reply before ⟨⟩
    obtain ⟨-, rfl, -⟩ := answers
    exact filed.inStep.openItem_ok
  · intro node v operation plan plans how ends result task done granted
    have adheres := now.jobs job mem
    cases waits : job.waits with
    | true =>
      have awaits := adheres.awaits waits
      rw [done] at awaits
      exact awaits.elim
    | false =>
      have ended := adheres.goes waits
      rw [task, done] at ended
      exact ended granted

def workAt (node : NodeId) (ends : Closing) (h : ends ≠ .finish .started) : Errand :=
  .work ⟨node, .ofSecs 5⟩ ⟨1⟩ .start none [] ends h

def naming (n : UInt64) : Oracle := .smooth ⟨0, n⟩ ⟨5⟩ fun _ => .ok ⟨true, "", []⟩

/-- The first node begins work, which is closed behind its back. The second node begins work, and
then the first one finishes. The third node comes too early. -/
def lateFinish : List (Turn Errand) :=
  .launch (workAt ⟨1⟩ (.finish .done) nofun) :: advance 0 5 (naming 1) ++
    .launch (.recovery ⟨9⟩
      ⟨⟨0, 1⟩, ⟨1⟩, ⟨1⟩, .started, .start, none, .epoch, .epoch⟩ .error nofun) ::
    advance 1 2 (naming 1) ++
    .launch (workAt ⟨2⟩ .abandon nofun) :: advance 2 5 (naming 2) ++ advance 0 3 (naming 1) ++
    .launch (workAt ⟨3⟩ (.finish .done) nofun) :: advance 3 6 (naming 3)

/-- The late end of the first node's work does not touch the entry of the second node's item, and so
the third node is refused. After that the process of the second node ends. -/
theorem late_finish_stays_in_step :
    ∃ sys, play? errands (.start {}) lateFinish = some sys ∧
      sys.shared.store.openItem? ⟨1⟩ = some ⟨0, 2⟩ ∧
      (∀ {i j x y}, sys.shared.store.item? i = some x → sys.shared.store.item? j = some y →
        x.vm = y.vm → x.Open → y.Open → x = y) ∧
      (∀ v id, sys.shared.store.openItem? v = some id ↔
        ∃ x, sys.shared.store.item? id = some x ∧ x.vm = v ∧ x.Open) ∧
      sys.shared.store.Retains (sys.crash errands ⟨2⟩).shared.store ∧ ∀ job ∈ sys.jobs,
        BeginsByRule job := by
  have leads : ((play? errands (.start {}) lateFinish).any fun sys =>
      sys.shared.store.openItem? ⟨1⟩ = some ⟨0, 2⟩) = true := by decide
  obtain ⟨sys, played, slot⟩ := (Option.any_eq_true ..).1 leads
  exact ⟨sys, played, of_decide_eq_true slot,
    ledgers_stay_in_step .empty (runs_of_play? played).reaches (.single (.crash ⟨2⟩))⟩

end ControlPlane.Concurrent
