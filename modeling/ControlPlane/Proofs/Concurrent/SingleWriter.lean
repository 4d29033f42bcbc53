import ControlPlane.Proofs.Operation.Calls
import ControlPlane.Proofs.Operation.OutwardRequests
import ControlPlane.Proofs.Transition.Requests
import ControlPlane.Work.Ledger

/-!
# An operation without another writer

An operation on a machine that nobody else writes to. Hosts and collaborators answer as they like,
and what else is in the store may change at any time.
-/

namespace ControlPlane

namespace Concurrent
open Work Control

/-- Others leave the machine, its volumes and its items as they are. -/
structure Undisturbed (v : VmId) (a b : Shared) : Prop where
  view : b.store.view v = a.store.view v
  items : ∀ {id x}, a.store.item? id = some x → x.vm = v → b.store.item? id = some x

/-- A program runs to its end, while others may act before each request and before each answer. -/
inductive Run {α : Type} (rely : Shared → Shared → Prop) (job : Nat) :
    Program surroundings α → List Exchange → Shared → α →
      List Exchange → Shared → Prop
  | done (a : α) (past : List Exchange) (s : Shared) : Run rely job (.done a) past s a past s
  | ask {r : Request} {rest : r.Reply → Program surroundings α} {past past' : List Exchange}
      {s s₁ s₂ s₃ s' : Shared} {reply : r.Reply} {a : α} (enters : rely s s₁)
      (waits : rely (s₁.enter job r) s₂) (answers : s₂.Answers job r reply s₃)
      (goes : Run rely job (rest reply) (past ++ [⟨r, reply, s₂.store⟩]) s₃ a past' s') :
      Run rely job (.ask r rest) past s a past' s'

variable {v : VmId} {job : Nat} {a b c s s' : Shared} {past past' : List Exchange}

theorem Run.extends {rely : Shared → Shared → Prop} {α : Type} {p : Program surroundings α}
    {result : α} (run : Run rely job p past s result past' s') :
    ∃ more, past' = past ++ more := by
  induction run with
  | done => exact ⟨[], (List.append_nil _).symm⟩
  | ask enters waits answers goes ih =>
    obtain ⟨more, rfl⟩ := ih
    exact ⟨_ :: more, List.append_assoc ..⟩

theorem Run.mono {rely rely' : Shared → Shared → Prop} {α : Type} {p : Program surroundings α}
    {result : α} (le : ∀ s s', rely s s' → rely' s s')
    (run : Run rely job p past s result past' s') :
    Run rely' job p past s result past' s' := by
  induction run with
  | done => exact .done ..
  | ask enters waits answers goes ih => exact .ask (le _ _ enters) (le _ _ waits) answers ih

theorem Undisturbed.refl (v : VmId) (s : Shared) : Undisturbed v s s :=
  ⟨rfl, fun stored _ => stored⟩

theorem Undisturbed.trans (h : Undisturbed v a b) (h' : Undisturbed v b c) : Undisturbed v a c := by
  constructor
  · rw [h'.view, h.view]
  · intro id x stored here
    exact h'.items (h.items stored here) here

def alone (v : VmId) (job : Nat) : Contract where
  job := job
  invariant _ := True
  rely := Undisturbed v
  allow _ _ := True
  fit _ _ _ := True
  rely_refl := .refl v
  rely_trans := .trans
  allow_refl _ := trivial

/-- Under a contract whose invariant says nothing, a program that is safe ends as it should, however
a run of it goes. -/
theorem Safe.sound {C : Contract} {α : Type} {Q : α → Assertion} {p : Program surroundings α}
    {result : α} (any : ∀ s, C.invariant s) (h : Safe C Q p past s)
    (run : Run C.rely C.job p past s result past' s') :
    Q result past' s' := by
  induction run with
  | done a past s => exact h
  | ask enters waits answers goes ih =>
    obtain ⟨-, h⟩ := h _ enters (any _)
    obtain ⟨-, h⟩ := h _ waits (any _)
    exact ih (h _ _ answers).2

theorem Safe.run_sound {α : Type} {Q : α → Assertion} {p : Program surroundings α}
    {result : α} (h : Safe (alone v job) Q p past s)
    (run : Run (Undisturbed v) job p past s result past' s') :
    Q result past' s' := h.sound (fun _ => trivial) run

end Concurrent

theorem Agent.Kind.name_injective {k k' : Kind} (h : Enumeration.name k = Enumeration.name k') :
    k = k' := by
  revert h
  cases k <;> cases k' <;> decide

namespace Agent.Envelope

/-- The envelope holds a command that changes something, and not a question. -/
def Commands (e : Envelope) : Prop := e.kind ≠ Enumeration.name Kind.checkState

instance (e : Envelope) : Decidable e.Commands := by unfold Commands; infer_instance

theorem commands_ofBody {k : Kind} (other : k ≠ .checkState) (host : HostId) (body : k.Body)
    (wait : Span) : (ofBody host k body wait).Commands :=
  fun same => other (Kind.name_injective same)

end Agent.Envelope

namespace Control.Request

def Commands : Request → Prop
  | .send e => e.Commands
  | .sendBoth first second => first.Commands ∨ second.Commands
  | _ => False

instance (r : Request) : Decidable r.Commands := by
  cases r <;> unfold Commands <;> infer_instance

theorem Commands.sends {r : Request} (h : r.Commands) : r.Sends := by
  cases r <;> trivial

end Control.Request

namespace Store
variable {s : Store} {v : VmId} {vm vm' : Vm} {volumes : List Volume}

theorem view_insert (same : s.view v = ⟨some vm, volumes⟩) (named : vm'.id = v) :
    ({ s with vms := s.vms.insert vm' }).view v = ⟨some vm', volumes⟩ := by
  have kept : s.volumesOf v = volumes := congrArg View.volumes same
  refine View.ext ?_ kept
  exact (Store.vm?_insert ..).trans (if_pos named)

theorem view_swap {u : StateUpdate} (about : u.vm = v) (fits : u.Matches vm)
    (same : s.view v = ⟨some vm, volumes⟩) :
    (s.swap u).1 = .ok (some (u.apply vm)) ∧
    (s.swap u).2.view v = ⟨some (u.apply vm), volumes⟩ := by
  have found : s.vm? u.vm = some vm := about ▸ congrArg View.vm same
  have named : (u.apply vm).id = v := (Store.id_of_vm? found).trans about
  rw [Store.swap_matching found fits]
  exact ⟨rfl, view_insert same named⟩

theorem view_modifyVm {change : Vm → Vm} (keeps : (change vm).id = vm.id)
    (same : s.view v = ⟨some vm, volumes⟩) :
    (s.modifyVm v change).1 = .ok () ∧
      (s.modifyVm v change).2.view v = ⟨some (change vm), volumes⟩ := by
  have found : s.vm? v = some vm := congrArg View.vm same
  have named : (change vm).id = v := keeps.trans (Store.id_of_vm? found)
  simp only [Store.modifyVm, found]
  exact ⟨trivial, view_insert same named⟩

end Store

def Transition.written (t : Transition) (vm : Vm) (next : State)
    (host lastHost : Option HostId) : Vm :=
  StateUpdate.apply ⟨t.vm, t.expected, vm.version, next, host, lastHost⟩ vm

namespace Concurrent
open Work Control

def Began (item : Item) (past : List Exchange) : Prop :=
  ∃ before, (⟨.transact (.openItem item), .ok (), before⟩ : Exchange) ∈ past

def Unsent (past : List Exchange) : Prop := ∀ e ∈ past, ¬ e.request.Sends

/-- What the store said of the machine when the last command was sent, or at first. -/
def viewAtCommand (v : VmId) (first : View) (past : List Exchange) : View :=
  past.foldl (fun view e => if e.request.Commands then e.before.view v else view) first

def Steady (v : VmId) (first view : View) (past : List Exchange) : Prop :=
  viewAtCommand v first past = view

/-- One item of the machine has been opened and is at some step, and the store says of the machine
what it is known to say. -/
structure Held (v : VmId) (item : Item) (step : Work.Step) (view : View) (past : List Exchange)
    (s : Shared) : Prop where
  began : ∀ {other}, Began other past → other = item
  filed : ∃ x, s.store.item? item.id = some x ∧ x.vm = v ∧ x.step = step
  view : s.store.view v = view

def Lies (v : VmId) (item : Item) (step : Work.Step) (view : View) (T : List Exchange → Prop) :
    Assertion :=
  fun past s => Held v item step view past s ∧ T past

abbrev Stands (v : VmId) (item : Item) : View → (List Exchange → Prop) → Assertion :=
  Lies v item .started

def Spared (T : List Exchange → Prop) : Prop :=
  ∀ ⦃past e⦄, ¬ e.request.Sends → T past → T (past ++ [e])

variable {v : VmId} {job : Nat} {s s' : Shared} {past : List Exchange} {item : Item}
  {step : Work.Step} {view first : View} {T : List Exchange → Prop} {e : Exchange}

theorem viewAtCommand_append : viewAtCommand v first (past ++ [e]) =
    if e.request.Commands then e.before.view v else viewAtCommand v first past :=
  List.foldl_append ..

theorem spared_true : Spared fun _ => True := fun _ _ _ _ => trivial

theorem spared_unsent : Spared Unsent := by
  intro past e quiet unsent other mem
  rcases List.mem_append.1 mem with mem | mem
  · exact unsent other mem
  · rw [List.mem_singleton.1 mem]
    exact quiet

theorem spared_steady : Spared (Steady v first view) := by
  intro past e quiet steady
  unfold Steady at steady ⊢
  rw [viewAtCommand_append, if_neg fun commands => quiet commands.sends, steady]

theorem steady_of_unsent (unsent : Unsent past) : Steady v first first past := by
  unfold Steady viewAtCommand
  induction past with
  | nil => rfl
  | cons e past ih =>
    have quiet : ¬ e.request.Commands := fun commands => unsent e List.mem_cons_self commands.sends
    rw [List.foldl_cons, if_neg quiet]
    exact ih fun other mem => unsent other (List.mem_cons_of_mem e mem)

theorem Steady.append (same : e.before.view v = view) (steady : Steady v first view past) :
    Steady v first view (past ++ [e]) := by
  unfold Steady at steady ⊢
  rw [viewAtCommand_append]
  split
  · exact same
  · exact steady

theorem Began.before {after : List Exchange} (h : Began item past) :
    Began item (past ++ after) := by
  obtain ⟨store, mem⟩ := h
  exact ⟨store, List.mem_append_left _ mem⟩

theorem Began.of_append {r : Request} {reply : r.Reply} {before : Store} {other : Item}
    (no : ∀ x, r ≠ .transact (.openItem x))
    (h : Began other (past ++ [⟨r, reply, before⟩])) :
    Began other past := by
  obtain ⟨before', mem⟩ := h
  rcases List.mem_append.1 mem with mem | mem
  · exact ⟨before', mem⟩
  · have same := congrArg Exchange.request (List.mem_singleton.1 mem)
    exact absurd same.symm (no other)

theorem Held.append {r : Request} {reply : r.Reply} {before : Store}
    (no : ∀ x, r ≠ .transact (.openItem x)) (h : Held v item step view past s) :
    Held v item step view (past ++ [⟨r, reply, before⟩]) s :=
  ⟨fun began => h.began (began.of_append no), h.filed, h.view⟩

theorem no_openItem_of_quiet {r : Request} (quiet : r.Quiet) (x : Item) :
    r ≠ .transact (.openItem x) := by
  rintro rfl
  exact quiet

theorem stable_lies : Stable (alone v job) (Lies v item step view T) := by
  intro past s s' rely _ h
  change Undisturbed v s s' at rely
  obtain ⟨held, told⟩ := h
  obtain ⟨x, stored, here, at_step⟩ := held.filed
  exact ⟨⟨held.began, ⟨x, rely.items stored here, here, at_step⟩,
    rely.view.trans held.view⟩, told⟩

theorem Lies.silent {r : Request} {reply : r.Reply} (spared : Spared T) (silent : r.Silent)
    (h : Lies v item step view T past s) :
    Lies v item step view T (past ++ [⟨r, reply, s.store⟩]) s :=
  ⟨h.1.append (no_openItem_of_quiet silent.1), spared silent.2 h.2⟩

theorem lasting_silent (spared : Spared T) :
    Lasting (alone v job) Request.Silent (Lies v item step view T) where
  stable := stable_lies
  fit _ _ _ := trivial
  keeps := Lies.silent spared

theorem lasting_steady :
    Lasting (alone v job) Request.Quiet (Lies v item step view (Steady v first view)) where
  stable := stable_lies
  fit _ _ _ := trivial
  keeps quiet h := ⟨h.1.append (no_openItem_of_quiet quiet), h.2.append h.1.view⟩

theorem Held.named {vm : Vm} (h : Held v item step view past s) (stored : view.vm = some vm) :
    vm.id = v := by
  rw [← h.view] at stored
  exact Store.id_of_vm? stored

/-- What a transaction of the job makes of the machine and its item. -/
theorem Held.carried {t : Transaction} {reply : t.Reply} {before : Store} {step' : Work.Step}
    (no : ∀ x, t ≠ .openItem x)
    (fits : ∀ x : Item, x.id = item.id → x.step = step →
      (t.onItem x).vm = x.vm ∧ (t.onItem x).step = step')
    (h : Held v item step view past s) :
    Held v item step' ((t.apply s.store).2.view v) (past ++ [⟨.transact t, reply, before⟩])
      { s with store := (t.apply s.store).2 } := by
  obtain ⟨x, stored, here, at_step⟩ := h.filed
  obtain ⟨kept, goes⟩ := fits x (Store.id_of_item? stored) at_step
  have stored' := Transaction.item?_apply stored fun y e => absurd e (no y)
  refine ⟨?_, ⟨t.onItem x, stored', kept.trans here, goes⟩, rfl⟩
  intro other began
  refine h.began (began.of_append ?_)
  intro y e
  exact no y (Request.transact.inj e)

theorem alone_write {t : Transaction} {Q : t.Reply → View → Prop} (spared : Spared T)
    (names : t.names? = none) (closes : t.closes? = none)
    (writes : ∀ s : Store, s.view v = view → Q (t.apply s).1 ((t.apply s).2.view v))
    (h : Stands v item view T past s) :
    Safe (alone v job)
      (fun reply past s => ∃ view', Q reply view' ∧ Stands v item view' T past s)
      (Program.call (I := surroundings) (.transact t)) past s := by
  refine Safe.carry (f := .done) stable_lies h (fun _ _ _ => trivial) ?_
  intro s h _ _
  refine ⟨trivial, _, writes s.store h.1.view, h.1.carried ?_ ?_, spared id h.2⟩
  · rintro y rfl
    cases names
  · intro x _ isOpen
    rw [Transaction.onItem_frame x names closes]
    exact ⟨rfl, isOpen⟩

theorem alone_transition {t : Transition} (spared : Spared T) (subject : t.vm = v)
    (h : Stands v item view T past s) :
    Safe (alone v job) (Ends
      (fun w past s => ∃ vm u, view.vm = some vm ∧ t.check vm = .ok u ∧ w = u.apply vm ∧
        Stands v item ⟨some w, view.volumes⟩ T past s)
      (fun past s => (∀ vm u, view.vm = some vm → t.check vm ≠ .ok u) ∧
        Stands v item view T past s))
      t.run.run past s := by
  rw [Transition.run_eq]
  refine Safe.observe trivial stable_lies h (fun _ _ _ => trivial) ?_
  intro s found h _ answers
  obtain ⟨-, rfl, -⟩ := answers
  have here : s.store.vm? t.vm = view.vm := by
    rw [subject]
    exact congrArg View.vm h.1.view
  have kept : Stands v item view T
    (past ++ [⟨.transact (.vm t.vm), s.store.vm? t.vm, s.store⟩]) s :=
    Lies.silent spared ⟨trivial, id⟩ h
  simp only [Transaction.apply]
  rw [here] at kept ⊢
  generalize past ++ [(⟨.transact (.vm t.vm), view.vm, s.store⟩ : Exchange)] = past at kept
  cases stored : view.vm with
  | none => exact ⟨fun vm u e => (by cases e), kept⟩
  | some vm =>
    simp only [Transition.afterRead]
    cases checked : t.check vm with
    | error failure =>
      refine ⟨?_, kept⟩
      intro vm' u e ok
      cases e
      rw [checked] at ok
      cases ok
    | ok u =>
      obtain ⟨next, -, -, expected, -, e⟩ := Transition.check_ok checked
      have about : u.vm = v := by rw [e]; exact subject
      have fits : u.Matches vm := by
        rw [e]
        exact ⟨expected, rfl⟩
      refine Safe.observe trivial stable_lies kept (fun _ _ _ => trivial) ?_
      intro s passed h _ answers
      obtain ⟨rfl, -⟩ := answers
      refine Safe.then (p := Program.call (I := surroundings) (.transact (.swap u)))
        (f := t.afterSwap) (alone_write (Q := fun (reply : Except Failure (Option Vm)) view' =>
          reply = .ok (some (u.apply vm)) ∧ view' = ⟨some (u.apply vm), view.volumes⟩)
            spared rfl rfl ?_
          (Lies.silent (r := .pass .beforeSwap) spared ⟨trivial, id⟩ h)) ?_
      · intro store same
        exact Store.view_swap about fits (same.trans (View.ext stored rfl))
      · intro reply past s h
        obtain ⟨view', ⟨rfl, rfl⟩, h⟩ := h
        exact ⟨vm, u, rfl, checked, rfl, h⟩

theorem alone_moves {t : Transition} {vm : Vm} {next : State} {host lastHost : Option HostId}
    (spared : Spared T) (subject : t.vm = v) (stored : view.vm = some vm)
    (expected : vm.state = t.expected) (pinned : t.version.getD vm.version = vm.version)
    (legal : t.expected.next? t.event = some next)
    (hosted : Transition.hosts vm next t.host = .ok (host, lastHost))
    (h : Stands v item view T past s) :
    Safe (alone v job) (fun result past s => ∃ written, result = .ok written ∧
      written = t.written vm next host lastHost ∧
      Stands v item ⟨some written, view.volumes⟩ T past s) t.run.run past s := by
  have checked := Transition.check_eq_ok legal pinned expected hosted
  refine (alone_transition spared subject h).mono ?_
  intro result past s ends
  cases result with
  | ok w =>
    obtain ⟨vm', u, stored', checked', rfl, h⟩ := ends
    rw [stored] at stored'
    cases stored'
    rw [checked] at checked'
    cases checked'
    exact ⟨_, rfl, rfl, h⟩
  | error failure => exact absurd checked (ends.1 vm _ stored)

/-- The version of the record that is left is the next one. -/
theorem alone_advances {t : Transition} {vm : Vm} {next : State} {host lastHost : Option HostId}
    (spared : Spared T) (subject : t.vm = v) (stored : view.vm = some vm)
    (expected : vm.state = t.expected) (pinned : t.version.getD vm.version = vm.version)
    (legal : t.expected.next? t.event = some next)
    (hosted : Transition.hosts vm next t.host = .ok (host, lastHost))
    (h : Stands v item view T past s) :
    Safe (alone v job) (fun result past s => ∃ written, result = .ok written ∧
      written = t.written vm next host lastHost ∧ written.version.toNat = vm.version.toNat + 1 ∧
      Stands v item ⟨some written, view.volumes⟩ T past s) t.run.run past s := by
  have counts : Safe (alone v job) (fun result _ _ => ∀ written, result = .ok written →
      written.version.toNat = vm.version.toNat + 1) t.run.run past s := by
    refine Safe.attempt (lasting_silent spared) ⟨trivial, id⟩ ⟨trivial, id⟩ ?_ ?_ h
    · intro _ s vm' u h found checked past s' h'
      have here : s.store.vm? t.vm = some vm := by
        rw [subject]
        exact (congrArg View.vm h.1.view).trans stored
      cases found.symm.trans here
      obtain ⟨next, -, -, expected, -, e⟩ := Transition.check_ok checked
      have about : u.vm = v := by rw [e]; exact subject
      have fits : u.Matches vm := by
        rw [e]
        exact ⟨expected, rfl⟩
      refine Safe.carry stable_lies h' (fun _ _ _ => trivial) fun s h _ carries => ⟨trivial, ?_⟩
      have stands : s.store.view v = ⟨some vm, view.volumes⟩ :=
        h.1.view.trans (View.ext stored rfl)
      have there : s.store.vm? u.vm = some vm := about ▸ congrArg View.vm stands
      simp only [Transaction.apply, (Store.view_swap about fits stands).1]
      have next : (u.apply vm).version.toNat = vm.version.toNat + 1 :=
        UInt64.toNat_succ (carries vm there fits)
      intro written ended
      cases ended
      exact next
    · intro failure past s h written no
      cases no
  refine ((alone_moves spared subject stored expected pinned legal hosted h).both counts).mono ?_
  intro result past s both
  obtain ⟨⟨written, ended, same, h⟩, counts⟩ := both
  exact ⟨written, ended, same, counts written ended, h⟩

theorem alone_loadVm (spared : Spared T) (h : Stands v item view T past s) :
    Safe (alone v job) (fun result past s => (∀ vm, result = .ok vm ↔ view.vm = some vm) ∧
      Stands v item view T past s) (Procedure.loadVm v).run past s := by
  refine Safe.andThen (Q := fun result past s => result = .ok view.vm ∧
    Stands v item view T past s)
    (Safe.ask stable_lies (fun _ => rfl) h ?_) ?_ ?_
  · intro s h _
    refine ⟨trivial, ?_⟩
    rintro _ _ ⟨-, rfl, rfl⟩
    refine ⟨trivial, congrArg Except.ok (congrArg View.vm h.1.view), ?_⟩
    exact Lies.silent (r := .transact (.vm v)) spared ⟨trivial, id⟩ h
  · intro found past s h
    obtain ⟨e, h⟩ := h
    cases e
    cases view.vm with
    | none => exact ⟨fun vm => ⟨fun e => (by cases e), fun e => (by cases e)⟩, h⟩
    | some vm => exact ⟨fun vm' => by simp, h⟩
  · intro e past s h
    obtain ⟨absurd, -⟩ := h
    cases absurd

end Concurrent
end ControlPlane
