import ControlPlane.Migration.Precondition
import ControlPlane.Proofs.Concurrent.Contract
import ControlPlane.Proofs.Transition.Requests

/-!
# Requests that change nothing

Reading the store, asking collaborators and sending commands leave everything that jobs share as it
is. Long stretches of operations make no other requests.
-/

namespace ControlPlane

def Transaction.Reads : Transaction → Prop
  | .vm _ | .host _ | .pool _ | .volumesOf _ | .guestsOn _ | .openItems _ => True
  | _ => False

namespace Control.Request

def Sends : Request → Prop
  | .send _ | .sendBoth .. => True
  | _ => False

/-- The request is answered without a change to the store, the locks or the identifiers. -/
def Quiet : Request → Prop
  | .transact t => t.Reads
  | .freshId | .lock _ | .unlock .. => False
  | _ => True

def Silent (r : Request) : Prop := r.Quiet ∧ ¬ r.Sends

/-- The request is about locks and new items, and not about machines. -/
def Clerical : Request → Prop
  | .lock _ | .unlock .. | .now | .freshId | .pass _ | .transact (.openItem _) => True
  | _ => False

end Control.Request

open Control

namespace Program
variable {α β ε : Type} {K L : Request → Prop}

def Within (K : Request → Prop) (P : α → Prop) : Program surroundings α → Prop
  | .done a => P a
  | .ask r rest => K r ∧ ∀ reply, Within K P (rest reply)

theorem Within.mono {P P' : α → Prop} {p : Program surroundings α} (h : p.Within K P)
    (requests : ∀ r, K r → L r) (results : ∀ a, P a → P' a) : p.Within L P' := by
  induction p with
  | done a => exact results a h
  | ask r rest ih => exact ⟨requests r h.1, fun reply => ih reply (h.2 reply)⟩

theorem Within.then {P : α → Prop} {P' : β → Prop} {p : Program surroundings α}
    {f : α → Program surroundings β} (h : p.Within K P)
    (next : ∀ a, P a → (f a).Within K P') :
    (p >>= f).Within K P' := by
  induction p with
  | done a => exact next a h
  | ask r rest ih => exact ⟨h.1, fun reply => ih reply (h.2 reply)⟩

theorem Within.call {r : Request} (h : K r) :
    (Program.call (I := surroundings) r).Within K fun _ => True :=
  ⟨h, fun _ => trivial⟩

section
variable {P : Except ε α → Prop} {P' : Except ε β → Prop}
  {x : ExceptT ε (Program surroundings) α} {f : α → ExceptT ε (Program surroundings) β}

theorem Within.ofExcept {e : Except ε α} (ok : ∀ a, e = .ok a → (f a).run.Within K P')
    (error : ∀ failure, e = .error failure → P' (.error failure)) :
    ((liftM e : ExceptT ε (Program surroundings) α) >>= f).run.Within K P' := by
  cases e with
  | ok a => exact ok a rfl
  | error failure => exact error failure rfl

theorem Within.andThen (h : x.run.Within K P) (ok : ∀ a, P (.ok a) → (f a).run.Within K P')
    (error : ∀ e, P (.error e) → P' (.error e)) : (x >>= f).run.Within K P' := by
  refine Within.then h fun result p => ?_
  cases result with
  | ok a => exact ok a p
  | error e => exact error e p

theorem Within.ofProgram {P : α → Prop} {p : Program surroundings α} (h : p.Within K P)
    (next : ∀ a, P a → (f a).run.Within K P') :
    ((liftM p : ExceptT ε (Program surroundings) α) >>= f).run.Within K P' :=
  Within.andThen (P := fun result => ∃ a, result = .ok a ∧ P a)
    (h.then fun a p => ⟨a, rfl, p⟩)
    (fun _ ⟨_, e, p⟩ => Except.ok.inj e ▸ next _ p) fun _ ⟨_, e, _⟩ => nomatch e

theorem Within.adapted {ε' : Type} {P : Except ε' α → Prop}
    {x : ExceptT ε' (Program surroundings) α} {wrap : ε' → ε} (h : x.run.Within K P)
    (next : ∀ a, (f a).run.Within K fun _ => True) :
    (x.adapt wrap >>= f).run.Within K fun _ => True :=
  Within.andThen (P := fun _ => True) (h.then fun _ _ => trivial)
    (fun a _ => next a) fun _ _ => trivial

end

theorem Within.asked {r : Request} (h : K r) :
    (Procedure.ask r).run.Within K fun result => ∃ reply, result = .ok reply :=
  Within.then (.call h) fun reply _ => ⟨reply, rfl⟩

theorem Within.ask {r : Request} (h : K r) : (Procedure.ask r).run.Within K fun _ => True :=
  (Within.asked h).mono (fun _ h => h) fun _ _ => trivial

end Program

namespace Concurrent
variable {C : Contract} {K : Request → Prop} {s s' : Shared} {job : Nat} {r : Request}

theorem enter_of_quiet (quiet : r.Quiet) : s.enter job r = s := by
  cases r <;> first | rfl | cases quiet

theorem eq_of_answers {reply : r.Reply} (quiet : r.Quiet) (answers : s.Answers job r reply s') :
    s' = s := by
  cases r with
  | transact t =>
    obtain ⟨-, -, rfl⟩ := answers
    cases t <;> first | rfl | cases quiet
  | pass point => exact answers.2
  | freshId => cases quiet
  | lock name => cases quiet
  | unlock name how => cases quiet
  | _ => exact answers

/-- An answer leaves the store as it is, unless it is the answer to a transaction. -/
theorem Shared.store_of_answers {reply : r.Reply} (answers : s.Answers job r reply s') :
    s'.store = s.store ∨ ∃ t, r = .transact t ∧ s'.store = (t.apply s.store).2 := by
  cases r with
  | transact t => exact .inr ⟨t, rfl, congrArg Shared.store answers.2.2⟩
  | freshId =>
    obtain ⟨-, rfl⟩ := answers
    exact .inl rfl
  | lock name => cases reply <;> obtain ⟨-, rfl⟩ := answers <;> exact .inl rfl
  | unlock name how =>
    cases answers
    exact .inl rfl
  | pass point => exact .inl (congrArg Shared.store answers.2)
  | _ => exact .inl (congrArg Shared.store answers)

/-- An answer leaves the locks as they are, unless one is given back or no longer waited for. -/
theorem Shared.locks_of_answers {reply : r.Reply} (answers : s.Answers job r reply s') :
    s'.locks = s.locks ∨ (∃ name, r = .lock name ∧ s'.locks = s.locks.giveUp job name) ∨
      ∃ name how, r = .unlock name how ∧ s'.locks = s.locks.release name how := by
  cases r with
  | transact t =>
    obtain ⟨-, -, rfl⟩ := answers
    exact .inl rfl
  | freshId =>
    obtain ⟨-, rfl⟩ := answers
    exact .inl rfl
  | lock name =>
    cases reply with
    | true => exact .inl (congrArg Shared.locks answers.2)
    | false =>
      obtain ⟨-, rfl⟩ := answers
      exact .inr (.inl ⟨name, rfl, rfl⟩)
  | unlock name how =>
    cases answers
    exact .inr (.inr ⟨name, how, rfl, rfl⟩)
  | pass point => exact .inl (congrArg Shared.locks answers.2)
  | _ => exact .inl (congrArg Shared.locks answers)

section
variable {α : Type} {Q : α → Assertion} {P : Assertion} {past : List Exchange}

theorem Safe.observe {f : r.Reply → Program surroundings α} (quiet : r.Quiet)
    (stable : Stable C P) (h : P past s)
    (fit : ∀ s, P past s → C.invariant s → C.fit past s r)
    (next : ∀ s reply, P past s → C.invariant s → s.Answers C.job r reply s →
      Safe C Q (f reply) (past ++ [⟨r, reply, s.store⟩]) s) : Safe C Q (.ask r f) past s := by
  refine Safe.bind (p := Program.call (I := surroundings) r)
    (Safe.call stable (fun _ => enter_of_quiet quiet) h fun s h inv => ?_)
  refine ⟨fit s h inv, fun reply s' answers => ?_⟩
  have same := eq_of_answers quiet answers
  subst same
  exact ⟨C.allow_refl inv, next _ reply h inv answers⟩

theorem Safe.carry {t : Transaction} {f : t.Reply → Program surroundings α} (stable : Stable C P)
    (h : P past s) (fit : ∀ s, P past s → C.invariant s → C.fit past s (.transact t))
    (next : ∀ s, P past s → C.invariant s → Carries s.store t →
      C.allow s { s with store := (t.apply s.store).2 } ∧
        Safe C Q (f (t.apply s.store).1) (past ++ [⟨.transact t, (t.apply s.store).1, s.store⟩])
          { s with store := (t.apply s.store).2 }) : Safe C Q (.ask (.transact t) f) past s := by
  refine Safe.bind (p := Program.call (I := surroundings) (.transact t))
    (Safe.call stable (fun _ => rfl) h fun s h inv => ?_)
  refine ⟨fit s h inv, ?_⟩
  rintro _ _ ⟨carries, rfl, rfl⟩
  exact next s h inv carries

end

/-- Others keep the assertion, and so do requests of a kind, which may be made under it. -/
structure Lasting (C : Contract) (K : Request → Prop) (P : Assertion) : Prop where
  stable : Stable C P
  fit : ∀ {r past s}, K r → P past s → C.invariant s → C.fit past s r
  keeps : ∀ {r reply past s}, K r → P past s → P (past ++ [⟨r, reply, s.store⟩]) s

theorem Lasting.silent {P : Assertion} (h : Lasting C Request.Quiet P) :
    Lasting C Request.Silent P where
  stable := h.stable
  fit silent := h.fit silent.1
  keeps silent := h.keeps silent.1

theorem Safe.within {α : Type} {P : α → Prop} {R : Assertion} {p : Program surroundings α}
    {past : List Exchange} (within : p.Within K P) (quiet : ∀ r, K r → r.Quiet)
    (lasting : Lasting C K R) (h : R past s) :
    Safe C (fun a past s => P a ∧ R past s) p past s := by
  induction p generalizing past s with
  | done a => exact ⟨within, h⟩
  | ask r rest ih =>
    obtain ⟨kind, within⟩ := within
    refine Safe.then (p := Program.call (I := surroundings) r)
      (Q := fun reply past s => (rest reply).Within K P ∧ R past s)
      (Safe.call lasting.stable (fun _ => enter_of_quiet (quiet r kind)) h fun s h inv => ?_)
      fun reply past s h => ih reply h.1 h.2
    refine ⟨lasting.fit kind h inv, fun reply s' answers => ?_⟩
    rw [eq_of_answers (quiet r kind) answers]
    exact ⟨C.allow_refl inv, within reply, lasting.keeps kind h⟩

/-- A transition of a record that is known. Nothing changes until the record is written. -/
theorem Safe.transition {t : Transition} {vm : Vm} {u : StateUpdate} {P Q : Assertion}
    {past : List Exchange} (lasting : Lasting C Request.Quiet P)
    (known : ∀ {past s}, P past s → s.store.vm? t.vm = some vm) (checked : t.check vm = .ok u)
    (fit : ∀ {past s}, P past s → C.invariant s → C.fit past s (.transact (.swap u)))
    (writes : ∀ {past s}, P past s → C.invariant s →
      C.allow s { s with store := ((Transaction.swap u).apply s.store).2 } ∧
        Q (past ++ [⟨.transact (.swap u), .ok (some (u.apply vm)), s.store⟩])
          { s with store := ((Transaction.swap u).apply s.store).2 }) (h : P past s) :
    Safe C (fun result past s => result = .ok (u.apply vm) ∧ Q past s) t.run.run past s := by
  rw [Transition.run_eq]
  refine Safe.observe trivial lasting.stable h
    (fun _ h inv => lasting.fit (r := .transact (.vm t.vm)) trivial h inv) ?_
  rintro s _ h - ⟨-, rfl, -⟩
  have kept : P (past ++ [⟨.transact (.vm t.vm), s.store.vm? t.vm, s.store⟩]) s :=
    lasting.keeps trivial h
  simp only [Transaction.apply, known h, Transition.afterRead, checked] at kept ⊢
  refine Safe.observe trivial lasting.stable kept
    (fun _ h inv => lasting.fit (r := .pass .beforeSwap) trivial h inv) ?_
  rintro s _ h - ⟨rfl, -⟩
  have kept : P (_ ++ [⟨.pass .beforeSwap, .ok (), s.store⟩]) s := lasting.keeps trivial h
  refine Safe.carry lasting.stable kept (fun _ h inv => fit h inv) fun s h inv _ => ?_
  obtain ⟨next, -, -, expected, -, e⟩ := Transition.check_ok checked
  have stored : s.store.vm? u.vm = some vm := by
    rw [e]
    exact known h
  have fits : u.Matches vm := by
    rw [e]
    exact ⟨expected, rfl⟩
  obtain ⟨allowed, written⟩ := writes h inv
  simp only [Transaction.apply, Store.swap_matching stored fits] at allowed written ⊢
  exact ⟨allowed, rfl, written⟩

/-- A transition, with what is known of the record that it has read. Where it writes nothing, it
fails. -/
theorem Safe.attempt {t : Transition} {P : Assertion} {Q : Except Failure Vm → Assertion}
    {past : List Exchange} (lasting : Lasting C K P) (reads : K (.transact (.vm t.vm)))
    (passes : K (.pass .beforeSwap))
    (swaps : ∀ {past s vm u}, P past s → s.store.vm? t.vm = some vm → t.check vm = .ok u →
      ∀ past s, P past s → Safe C Q (.ask (.transact (.swap u)) t.afterSwap) past s)
    (fails : ∀ failure past s, P past s → Q (.error failure) past s) (h : P past s) :
    Safe C Q t.run.run past s := by
  rw [Transition.run_eq]
  refine Safe.observe trivial lasting.stable h (fun _ h inv => lasting.fit reads h inv) ?_
  rintro s _ h - ⟨-, rfl, -⟩
  have kept : P (past ++ [⟨.transact (.vm t.vm), s.store.vm? t.vm, s.store⟩]) s :=
    lasting.keeps reads h
  simp only [Transaction.apply]
  generalize past ++ [(⟨.transact (.vm t.vm), s.store.vm? t.vm, s.store⟩ : Exchange)] =
    past at kept
  cases stored : s.store.vm? t.vm with
  | none => exact fails _ _ _ kept
  | some vm =>
    simp only [Transition.afterRead]
    cases checked : t.check vm with
    | error failure => exact fails _ _ _ kept
    | ok u =>
      refine Safe.observe trivial lasting.stable kept (fun _ h inv => lasting.fit passes h inv) ?_
      rintro s' _ h' - ⟨rfl, -⟩
      exact swaps h stored checked _ _ (lasting.keeps passes h')

section
variable {α β ε ε' : Type} {T : Except ε β → Assertion} {R : Assertion}
  {past : List Exchange}

theorem Safe.query {P : α → Prop} {p : Program surroundings α}
    {f : α → ExceptT ε (Program surroundings) β} (within : p.Within K P)
    (quiet : ∀ r, K r → r.Quiet) (lasting : Lasting C K R) (h : R past s)
    (next : ∀ a past s, P a → R past s → Safe C T (f a).run past s) :
    Safe C T ((liftM p : ExceptT ε (Program surroundings) α) >>= f).run past s :=
  Safe.ofProgram (Safe.within within quiet lasting h) fun a past s h => next a past s h.1 h.2

theorem Safe.look {P : Except ε' α → Prop} {action : ExceptT ε' (Program surroundings) α}
    {wrap : ε' → ε} {f : α → ExceptT ε (Program surroundings) β}
    (within : action.run.Within K P) (quiet : ∀ r, K r → r.Quiet) (lasting : Lasting C K R)
    (h : R past s) (next : ∀ a past s, P (.ok a) → R past s → Safe C T (f a).run past s)
    (error : ∀ failure past s, R past s → T (.error (wrap failure)) past s) :
    Safe C T (action.adapt wrap >>= f).run past s :=
  Safe.adapted (Safe.within within quiet lasting h) (fun a past s h => next a past s h.1 h.2)
    fun failure past s h => error failure past s h.2

end
end Concurrent

namespace Procedure
variable {α : Type} {K : Request → Prop}

theorem require_within (what : Missing) (found : Option α) :
    (require what found).run.Within K fun _ => True := by
  cases found <;> trivial

theorem loadVm_within (id : VmId) (h : K (.transact (.vm id))) :
    (loadVm id).run.Within K fun _ => True :=
  .andThen (.ask h) (fun found _ => require_within _ found) fun _ _ => trivial

theorem loadHost_within (id : HostId) (h : K (.transact (.host id))) :
    (loadHost id).run.Within K fun _ => True :=
  .andThen (.ask h) (fun found _ => require_within _ found) fun _ _ => trivial

theorem loadPool_within (id : PoolId) (h : K (.transact (.pool id))) :
    (loadPool id).run.Within K fun _ => True :=
  .andThen (.ask h) (fun found _ => require_within _ found) fun _ _ => trivial

end Procedure

namespace Migration
open Procedure Control.Request

theorem plan_within (request : Request) :
    (plan request).run.Within Silent fun result => ∀ plan, result = .ok plan →
      plan.vm = request.vm :=
  .andThen (loadHost_within _ ⟨trivial, id⟩)
    (fun source _ => .andThen (loadHost_within _ ⟨trivial, id⟩)
      (fun destination _ => by rintro plan ⟨⟩; rfl) fun _ _ => nofun)
    fun _ _ => nofun

end Migration
end ControlPlane
