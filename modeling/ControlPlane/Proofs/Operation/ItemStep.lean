import ControlPlane.Proofs.Concurrent.SingleWriter
import ControlPlane.Proofs.Transition.LockedTransition

/-!
# What the step of an item tells

An operation begins its work, carries out its body and closes its item as the body has ended. The
step of the item then tells what has become of the machine.
-/

namespace ControlPlane.Concurrent
open Work Control Operation Procedure

/-- The step of an item and the records tell the same of a call that is over. -/
structure Tells (call : Call) (first last : View) (past : List Exchange) (succeeded : Bool)
    (step : Work.Step) : Prop where
  done : step = .done ↔ succeeded = true ∧ call.Reaches first last
  cancelled : step = .cancelled → succeeded = false ∧ Unsent past ∧ last = first
  error : step = .error → succeeded = false ∧ call.Rests first last
  started : step = .started →
    succeeded = false ∧ last = viewAtCommand call.vm first past ∧ call.Hangs last

def Concludes {α : Type} (call : Call) (first : View) (item : Item) :
    Except Ending α → Assertion
  | .ok _, past, s => ∃ last, call.Reaches first last ∧
      Stands call.vm item last (fun _ => True) past s
  | .error (.rejected _), past, s => Stands call.vm item first Unsent past s
  | .error (.failed _), past, s => ∃ last, call.Rests first last ∧
      Stands call.vm item last (fun _ => True) past s
  | .error (.unresolved _), past, s => ∃ last, call.Hangs last ∧
      Stands call.vm item last (Steady call.vm first last) past s

structure Waits (v : VmId) (view : View) (past : List Exchange) (s : Shared) : Prop where
  began : ∀ item, ¬ Began item past
  view : s.store.view v = view
  unsent : Unsent past

variable {v : VmId} {job : Nat} {s s' : Shared} {past : List Exchange} {item : Item}
  {step : Work.Step} {view first : View} {T : List Exchange → Prop} {α : Type} {node : Node}
  {ctx : Context} {call : Call}

theorem stable_waits : Stable (alone v job) (Waits v view) := by
  intro past s s' rely _ h
  change Undisturbed v s s' at rely
  exact ⟨h.began, rely.view.trans h.view, h.unsent⟩

theorem waits_first : Waits v (s.store.view v) [] s where
  began item began := by
    obtain ⟨_, mem⟩ := began
    cases mem
  view := rfl
  unsent _ mem := by cases mem

theorem Waits.append {r : Request} {reply : r.Reply} {before : Store}
    (no : ∀ x, r ≠ .transact (.openItem x)) (silent : ¬ r.Sends) (same : s'.store = s.store)
    (h : Waits v view past s) : Waits v view (past ++ [⟨r, reply, before⟩]) s' :=
  ⟨fun x began => h.began x (began.of_append no), same ▸ h.view,
    spared_unsent silent h.unsent⟩

theorem lasting_waits : Lasting (alone v job) Request.Silent (Waits v view) where
  stable := stable_waits
  fit _ _ _ := trivial
  keeps silent h := h.append (no_openItem_of_quiet silent.1) silent.2 rfl

theorem Waits.opened {store : Store} (h : Waits v view past s) (subject : item.vm = v)
    (isOpen : item.Open) (opens : s.store.openItem item = (.ok (), store)) :
    Stands v item view Unsent (past ++ [⟨.transact (.openItem item), .ok (), s.store⟩])
      { s with store := store } := by
  unfold Store.openItem at opens
  split at opens
  · cases opens
  cases opens
  refine ⟨⟨?_, ⟨item, ?_, subject, isOpen⟩, h.view⟩, spared_unsent id h.unsent⟩
  · rintro other ⟨before, mem⟩
    rcases List.mem_append.1 mem with mem | mem
    · exact absurd ⟨before, mem⟩ (h.began other)
    · cases List.mem_singleton.1 mem
      rfl
  · exact (Store.item?_putItem s.store item item.id).trans (if_pos rfl)

theorem Waits.refused {store : Store} {failure : Failure} (h : Waits v view past s)
    (refuses : s.store.openItem item = (.error failure, store)) :
    Waits v view (past ++ [⟨.transact (.openItem item), .error failure, s.store⟩])
      { s with store := store } := by
  unfold Store.openItem at refuses
  split at refuses
  · cases refuses
    refine ⟨?_, h.view, spared_unsent id h.unsent⟩
    rintro other ⟨before, mem⟩
    rcases List.mem_append.1 mem with mem | mem
    · exact h.began other ⟨before, mem⟩
    · cases List.mem_singleton.1 mem
  · cases refuses

section
variable {C : Contract} {R : Assertion} {A : Item → Assertion} {operation : Operation}
  {plan : Option Plan}

structure Heralded (C : Contract) (node : Node) (v : VmId) (plan : Option Plan) (R : Assertion)
    (A : Item → Assertion) : Prop where
  stable : Stable C R
  free : ∀ {a b}, C.allow a b
  fit : ∀ {r past s}, R past s → C.fit past s r
  keeps : ∀ {r : Request} {reply : r.Reply} {before : Store} {past} {s s' : Shared},
    (∀ t, r ≠ .transact t) → ¬ r.Sends → s'.store = s.store → R past s →
      R (past ++ [⟨r, reply, before⟩]) s'
  enters : ∀ {past} {s s' : Shared}, s'.store = s.store → R past s → R past s'
  opens : ∀ {item : Item} {past} {s : Shared} {store : Store}, item.vm = v →
    item.owner = node.id →
    item.plan = plan → item.Open → R past s → s.store.openItem item = (.ok (), store) →
      A item (past ++ [⟨.transact (.openItem item), .ok (), s.store⟩]) { s with store := store }
  refuses : ∀ {item : Item} {past} {s : Shared} {failure} {store : Store}, R past s →
    s.store.openItem item = (.error failure, store) →
      R (past ++ [⟨.transact (.openItem item), .error failure, s.store⟩])
        { s with store := store }

theorem Heralded.ask (heralded : Heralded C node v plan R A) {r : Request}
    (no : ∀ t, r ≠ .transact t) (silent : ¬ r.Sends)
    (enter : ∀ s : Shared, s.enter C.job r = s)
    (answers : ∀ {s s' : Shared} {reply}, s.Answers C.job r reply s' → s'.store = s.store)
    (h : R past s) :
    Safe C (fun _ => R) (Procedure.ask r).run past s := by
  refine Safe.ask heralded.stable enter h fun s h _ =>
    ⟨heralded.fit h, fun reply s' answered => ?_⟩
  exact ⟨heralded.free, heralded.keeps no silent (answers answered) h⟩

theorem Heralded.lock (heralded : Heralded C node v plan R A) (h : R past s) :
    Safe C (fun _ => R) (Work.lock node v).run past s := by
  intro s₁ rely₁ inv₁
  refine ⟨heralded.free, fun s₂ rely₂ inv₂ => ?_⟩
  have h₁ := heralded.stable rely₁ inv₁ h
  have h₂ := heralded.stable rely₂ inv₂ (heralded.enters (s := s₁) rfl h₁)
  refine ⟨heralded.fit h₂, fun reply s₃ answers => ⟨heralded.free, ?_⟩⟩
  cases reply with
  | true =>
    obtain ⟨-, rfl⟩ := answers
    exact heralded.keeps (r := .lock _) (by rintro _ ⟨⟩) id rfl h₂
  | false =>
    obtain ⟨-, rfl⟩ := answers
    exact heralded.keeps (r := .lock _) (s := s₂) (by rintro _ ⟨⟩) id rfl h₂

theorem Heralded.start (heralded : Heralded C node v plan R A) (h : R past s) :
    Safe C (Ends A R) (Work.start node v operation plan).run past s := by
  refine Safe.andThen (heralded.lock h) (fun _ past s h => ?_) fun _ _ _ h => h
  refine Safe.andThen (heralded.ask (r := .now) (by rintro _ ⟨⟩) id (fun _ => rfl)
    (fun answered => congrArg Shared.store answered) h) (fun now past s h => ?_) fun _ _ _ h => h
  refine Safe.andThen (heralded.ask (r := .freshId) (by rintro _ ⟨⟩) id (fun _ => rfl)
    (fun answered => by rw [answered.2]) h) (fun id past s h => ?_) fun _ _ _ h => h
  refine Safe.andThen
    (Q := Ends (fun _ => A ⟨id, v, node.id, .started, operation, plan, now, now⟩) R)
    ?_ (fun _ _ _ h => h) fun _ _ _ h => h
  refine Safe.tryCatch (Q := Ends
    (fun _ => A ⟨id, v, node.id, .started, operation, plan, now, now⟩) R) ?_
    (fun _ _ _ h => h) ?_
  · refine Safe.andThen (Q := fun _ => R) (Safe.call heralded.stable (fun _ => rfl) h fun s h _ =>
      ⟨heralded.fit h, fun reply s' answered => ⟨heralded.free, ?_⟩⟩)
      (fun _ past s h => ?_) fun _ _ _ h => h
    · exact heralded.keeps (r := .pass .beginWork) (by rintro _ ⟨⟩) (fun no => no)
        (congrArg Shared.store answered.2) h
    · refine Safe.carry (f := .done) heralded.stable h
        (fun _ h _ => heralded.fit h) fun s h _ _ => ?_
      refine ⟨heralded.free, ?_⟩
      simp only [Safe, Transaction.apply]
      cases opens : s.store.openItem ⟨id, v, node.id, .started, operation, plan, now, now⟩ with
      | mk reply store =>
        cases reply with
        | error failure => exact heralded.refuses h opens
        | ok _ => exact heralded.opens rfl rfl rfl rfl h opens
  · intro failure past s h
    exact Safe.andThen (heralded.ask (r := .unlock _ _) (by rintro _ ⟨⟩)
      (fun no => no) (fun _ => rfl)
      (fun answered => by rw [answered]) h) (fun _ _ _ h => h) fun _ _ _ h => h

end

theorem heralded_waits {plan : Option Plan} :
    Heralded (alone v job) node v plan (Waits v view) fun item => Stands v item view Unsent where
  stable := stable_waits
  free := trivial
  fit _ := trivial
  keeps no silent same h := h.append (fun _ => no _) silent same
  enters same h := ⟨h.began, same ▸ h.view, h.unsent⟩
  opens subject _ _ isOpen h opens := h.opened subject isOpen opens
  refuses h refuses := h.refused refuses

theorem alone_begin {operation : Operation} {plan : Option Plan} (h : Waits v view past s) :
    Safe (alone v job) (Ends (fun item => Stands v item view Unsent) (Waits v view))
      (Work.start node v operation plan).run past s :=
  heralded_waits.start h

theorem Held.closed {now : Timestamp} (h : Held v item .started view past s) :
    Held v item step view (past ++ [⟨.transact (.closeItem item step now), (), s.store⟩])
      { s with store := s.store.closeItem item step now } := by
  rw [← h.view]
  refine h.carried (t := .closeItem item step now) (by rintro y ⟨⟩) ?_
  intro x same _
  rw [Transaction.onItem, if_pos same.symm]
  exact ⟨rfl, rfl⟩

theorem alone_unlock {name : LockName} {how : Release} (spared : Spared T)
    (h : Lies v item step view T past s) :
    Safe (alone v job) (fun result past s => result = .ok () ∧ Lies v item step view T past s)
      (Procedure.ask (.unlock name how)).run past s := by
  refine Safe.ask stable_lies (fun _ => rfl) h ?_
  intro s h _
  refine ⟨trivial, ?_⟩
  rintro ⟨⟩ _ rfl
  have kept : Held v item step view (past ++ [⟨.unlock name how, (), s.store⟩]) s :=
    h.1.append (by rintro y ⟨⟩)
  exact ⟨trivial, rfl, ⟨kept.began, kept.filed, kept.view⟩, spared (fun no => no) h.2⟩

theorem alone_finish (spared : Spared T) (h : Stands v item view T past s) :
    Safe (alone v job) (fun result past s => result = .ok () ∧ Lies v item step view T past s)
      (Work.finish node item step).run past s := by
  refine Safe.andThen (Q := Ends (fun _ => Stands v item view T) fun _ _ => False)
    (Safe.ask stable_lies (fun _ => rfl) h ?_) ?_ fun _ _ _ => False.elim
  · intro s h _
    refine ⟨trivial, ?_⟩
    rintro _ _ rfl
    exact ⟨trivial, Lies.silent spared ⟨trivial, fun no => no⟩ h⟩
  intro now past s h
  refine Safe.andThen (Q := Ends (fun _ => Lies v item step view T) fun _ _ => False)
    (Safe.transact stable_lies h ?_) ?_ fun _ _ _ => False.elim
  · intro s h _
    refine ⟨trivial, ?_⟩
    intro _
    exact ⟨trivial, h.1.closed, spared (fun no => no) h.2⟩
  · intro _ past s h
    exact alone_unlock spared h

/-- The step at which an operation leaves its item. -/
def lastStep : Except Ending α → Work.Step
  | .ok _ => .done
  | .error (.rejected _) => .cancelled
  | .error (.failed _) => .error
  | .error (.unresolved _) => .started

theorem alone_closes {result : Except Ending α} (spared : Spared T)
    (h : Stands v item view T past s) :
    Safe (alone v job) (fun told past s => told = result.mapError Ending.failure ∧
      Lies v item (lastStep result) view T past s) (settle ctx item result).run past s := by
  have finishes : ∀ step (last : Except Failure α), Safe (alone v job)
      (fun told past s => told = last ∧ Lies v item step view T past s)
      (do Work.finish ctx.node item step; liftM last : Procedure α).run past s := by
    intro step last
    refine Safe.andThen (alone_finish spared h) ?_ ?_
    · intro _ past s h
      cases last <;> exact ⟨rfl, h.2⟩
    · rintro _ _ _ ⟨no, -⟩
      cases no
  rcases result with (failure | failure | failure) | a
  · exact finishes _ (.error failure)
  · exact finishes _ (.error failure)
  · refine Safe.andThen (alone_unlock spared h) ?_ ?_
    · intro _ past s h
      exact ⟨rfl, h.2⟩
    · rintro _ _ _ ⟨no, -⟩
      cases no
  · exact finishes _ (.ok a)

/-- The item is closed as the body has ended, and then its step tells how that was. -/
theorem alone_settle {result : Except Ending α} (h : Concludes call first item result past s) :
    Safe (alone call.vm job) (fun result past s => ∃ last step,
      Tells call first last past result.isOk step ∧
      Lies call.vm item step last (fun _ => True) past s) (settle ctx item result).run past s := by
  -- Whether a failure is rejected, failed or unresolved decides which step is left behind.
  rcases result with (failure | failure | failure) | a
  · refine (alone_closes spared_unsent h).mono fun told past s h => ?_
    obtain ⟨rfl, h⟩ := h
    exact ⟨first, .cancelled, ⟨⟨nofun, fun no => nomatch no.1⟩,
      fun _ => ⟨rfl, h.2, rfl⟩, nofun, nofun⟩,
      h.1, trivial⟩
  · obtain ⟨last, rests, h⟩ := h
    refine (alone_closes spared_true h).mono fun told past s h => ?_
    obtain ⟨rfl, h⟩ := h
    exact ⟨last, .error, ⟨⟨nofun, fun no => nomatch no.1⟩, nofun,
      fun _ => ⟨rfl, rests⟩, nofun⟩, h⟩
  · obtain ⟨last, hangs, h⟩ := h
    refine (alone_closes spared_steady h).mono fun told past s h => ?_
    obtain ⟨rfl, h⟩ := h
    exact ⟨last, .started, ⟨⟨nofun, fun no => nomatch no.1⟩, nofun, nofun,
      fun _ => ⟨rfl, h.2.symm, hangs⟩⟩,
      h.1, trivial⟩
  · obtain ⟨last, reaches, h⟩ := h
    refine (alone_closes spared_true h).mono fun told past s h => ?_
    obtain ⟨rfl, h⟩ := h
    exact ⟨last, .done, ⟨⟨fun _ => ⟨rfl, reaches⟩, fun _ => rfl⟩, nofun,
      nofun, nofun⟩, h⟩

/-- Whatever item has been opened, its step tells what has become of the machine. -/
def Told (call : Call) (first : View) (succeeded : Bool) : Assertion := fun past s =>
  ∀ item, Began item past → ∃ x, s.store.item? item.id = some x ∧
    Tells call first (s.store.view call.vm) past succeeded x.step

theorem told_of_waits {view : View} {succeeded : Bool} (h : Waits v view past s) :
    Told call first succeeded past s := fun item began => absurd began (h.began item)

/-- A call whose body ends as it should is told of by its item. -/
theorem alone_underWork (call : Call) {operation : Operation} {plan : Option Plan}
    {body : Item → Body α} (h : Waits call.vm first past s)
    (each : ∀ {item past s}, Stands call.vm item first Unsent past s →
      Safe (alone call.vm job) (Concludes call first item) (body item).run past s) :
    Safe (alone call.vm job) (fun result => Told call first result.isOk)
      (underWork ctx call.vm operation plan body).run past s := by
  refine Safe.andThen (alone_begin h) ?_ fun _ _ _ h => told_of_waits h
  intro item past s h
  refine Safe.ofProgram (each h) ?_
  intro ending past s h
  refine (alone_settle h).mono ?_
  intro result past s h
  obtain ⟨last, step, tells, held, -⟩ := h
  intro other began
  obtain rfl := held.began began
  obtain ⟨x, stored, -, rfl⟩ := held.filed
  exact ⟨x, stored, held.view ▸ tells⟩

end ControlPlane.Concurrent
