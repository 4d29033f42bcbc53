import ControlPlane.Proofs.Concurrent.SharedState

/-!
# Contracts

What a job may rely on while it waits, and what it has to keep to. A program is safe from some point
on if each of its requests keeps to the contract, whatever others do in between and whatever is
answered, and if it ends as it should.
-/

namespace ControlPlane.Concurrent
open Control

/-- What a job has learned so far, and what it shares with others. -/
abbrev Assertion := List Exchange → Shared → Prop

/-- An operation ends well with one assertion, and fails with another. -/
def Ends {α ε : Type} (A : α → Assertion) (E : Assertion) : Except ε α → Assertion
  | .ok a => A a
  | .error _ => E

structure Contract where
  job : Nat
  /-- Holds at all times. -/
  invariant : Shared → Prop
  /-- What others may do. -/
  rely : Shared → Shared → Prop
  /-- What the job may do. -/
  allow : Shared → Shared → Prop
  /-- When the job may make a request. -/
  fit : List Exchange → Shared → Request → Prop
  rely_refl : ∀ s, rely s s
  rely_trans : ∀ {a b c}, rely a b → rely b c → rely a c
  allow_refl : ∀ {s}, invariant s → allow s s

variable {C : Contract} {α β ε ε' : Type}

/-- Whatever is asked and answered in between, the program keeps to the contract and ends with the
assertion. -/
def Safe (C : Contract) (Q : α → Assertion) : Program surroundings α → Assertion
  | .done a => Q a
  | .ask r rest => fun past s =>
    ∀ s₁, C.rely s s₁ → C.invariant s₁ → C.allow s₁ (s₁.enter C.job r) ∧
      ∀ s₂, C.rely (s₁.enter C.job r) s₂ → C.invariant s₂ → C.fit past s₂ r ∧
        ∀ reply s₃, s₂.Answers C.job r reply s₃ →
          C.allow s₂ s₃ ∧ Safe C Q (rest reply) (past ++ [⟨r, reply, s₂.store⟩]) s₃

def Stable (C : Contract) (P : Assertion) : Prop :=
  ∀ ⦃past s s'⦄, C.rely s s' → C.invariant s' → P past s → P past s'

section
variable {P : Assertion} {Q R : α → Assertion} {past : List Exchange} {s : Shared}

theorem Safe.mono {p : Program surroundings α} (h : Safe C Q p past s)
    (le : ∀ a past s, Q a past s → R a past s) : Safe C R p past s := by
  induction p generalizing past s with
  | done a => exact le a past s h
  | ask r rest ih =>
    intro s₁ rely₁ inv₁
    obtain ⟨entered, h⟩ := h s₁ rely₁ inv₁
    refine ⟨entered, fun s₂ rely₂ inv₂ => ?_⟩
    obtain ⟨fit, h⟩ := h s₂ rely₂ inv₂
    refine ⟨fit, fun reply s₃ answers => ?_⟩
    obtain ⟨allowed, h⟩ := h reply s₃ answers
    exact ⟨allowed, ih reply h⟩

/-- What two looks at a program tell of its end holds together. -/
theorem Safe.both {p : Program surroundings α} (h : Safe C Q p past s) (h' : Safe C R p past s) :
    Safe C (fun a past s => Q a past s ∧ R a past s) p past s := by
  induction p generalizing past s with
  | done a => exact ⟨h, h'⟩
  | ask r rest ih =>
    intro s₁ rely₁ inv₁
    obtain ⟨entered, h⟩ := h s₁ rely₁ inv₁
    obtain ⟨-, h'⟩ := h' s₁ rely₁ inv₁
    refine ⟨entered, fun s₂ rely₂ inv₂ => ?_⟩
    obtain ⟨fit, h⟩ := h s₂ rely₂ inv₂
    obtain ⟨-, h'⟩ := h' s₂ rely₂ inv₂
    refine ⟨fit, fun reply s₃ answers => ?_⟩
    obtain ⟨allowed, h⟩ := h reply s₃ answers
    exact ⟨allowed, ih reply h (h' reply s₃ answers).2⟩

theorem Safe.bind {p : Program surroundings α} {f : α → Program surroundings β}
    {T : β → Assertion} (h : Safe C (fun a => Safe C T (f a)) p past s) :
    Safe C T (p >>= f) past s := by
  induction p generalizing past s with
  | done a => exact h
  | ask r rest ih =>
    intro s₁ rely₁ inv₁
    obtain ⟨entered, h⟩ := h s₁ rely₁ inv₁
    refine ⟨entered, fun s₂ rely₂ inv₂ => ?_⟩
    obtain ⟨fit, h⟩ := h s₂ rely₂ inv₂
    refine ⟨fit, fun reply s₃ answers => ?_⟩
    obtain ⟨allowed, h⟩ := h reply s₃ answers
    exact ⟨allowed, ih reply h⟩

theorem Safe.then {p : Program surroundings α} {f : α → Program surroundings β}
    {T : β → Assertion} (h : Safe C Q p past s)
    (next : ∀ a past s, Q a past s → Safe C T (f a) past s) : Safe C T (p >>= f) past s :=
  .bind (h.mono next)

theorem Safe.of_rely {s' : Shared} {p : Program surroundings α} (stable : ∀ a, Stable C (Q a))
    (rely : C.rely s s') (inv : C.invariant s') (h : Safe C Q p past s) : Safe C Q p past s' := by
  cases p with
  | done a => exact stable a rely inv h
  | ask r rest =>
    intro s₁ rely₁ inv₁
    exact h s₁ (C.rely_trans rely rely₁) inv₁

/-- A program of another kind, each of whose requests is carried out by a program of its own. -/
theorem Safe.run {J : Interface} {answer : (r : J.Request) → Program surroundings (J.Reply r)}
    (each : ∀ r past s, P past s → Safe C (fun _ => P) (answer r) past s) (p : Program J α)
    (h : P past s) : Safe C (fun _ => P) (p.run answer) past s := by
  induction p generalizing past s with
  | done a => exact h
  | ask r rest ih => exact Safe.then (each r past s h) fun reply _ _ h => ih reply h

end

section
variable {Q : Except ε α → Assertion} {T : Except ε β → Assertion} {past : List Exchange}
  {s : Shared} {x : ExceptT ε (Program surroundings) α}
  {f : α → ExceptT ε (Program surroundings) β}

theorem Safe.andThen (h : Safe C Q x.run past s)
    (ok : ∀ a past s, Q (.ok a) past s → Safe C T (f a).run past s)
    (error : ∀ e past s, Q (.error e) past s → T (.error e) past s) :
    Safe C T (x >>= f).run past s := by
  refine Safe.then h fun result past s q => ?_
  cases result with
  | ok a => exact ok a past s q
  | error e => exact error e past s q

theorem Safe.ofExcept {e : Except ε α} (ok : ∀ a, e = .ok a → Safe C T (f a).run past s)
    (error : ∀ failure, e = .error failure → T (.error failure) past s) :
    Safe C T ((liftM e : ExceptT ε (Program surroundings) α) >>= f).run past s := by
  cases e with
  | ok a => exact ok a rfl
  | error failure => exact error failure rfl

theorem Safe.ofAdapted {e : Except ε' α} {wrap : ε' → ε}
    (ok : ∀ a, e = .ok a → Safe C T (f a).run past s)
    (error : ∀ failure, e = .error failure → T (.error (wrap failure)) past s) :
    Safe C T ((liftM e : ExceptT ε' (Program surroundings) α).adapt wrap >>= f).run past s := by
  cases e with
  | ok a => exact ok a rfl
  | error failure => exact error failure rfl

theorem Safe.ofProgram {Q : α → Assertion} {p : Program surroundings α} (h : Safe C Q p past s)
    (next : ∀ a past s, Q a past s → Safe C T (f a).run past s) :
    Safe C T ((liftM p : ExceptT ε (Program surroundings) α) >>= f).run past s :=
  Safe.andThen (Q := fun result past s => ∃ a, result = .ok a ∧ Q a past s)
    (Safe.then h fun a _ _ q => ⟨a, rfl, q⟩)
    (fun _ _ _ ⟨_, e, q⟩ => Except.ok.inj e ▸ next _ _ _ q)
    fun _ _ _ ⟨_, e, _⟩ => nomatch e

theorem Safe.tryCatch {handle : ε → ExceptT ε (Program surroundings) α}
    {T : Except ε α → Assertion} (h : Safe C Q x.run past s)
    (ok : ∀ a past s, Q (.ok a) past s → T (.ok a) past s)
    (error : ∀ e past s, Q (.error e) past s → Safe C T (handle e).run past s) :
    Safe C T (tryCatch x handle).run past s := by
  refine Safe.then h fun result past s q => ?_
  cases result with
  | ok a => exact ok a past s q
  | error e => exact error e past s q

theorem Safe.adapt {g : ε → ε'} {T : Except ε' α → Assertion}
    (h : Safe C (fun result => T (result.mapError g)) x.run past s) :
    Safe C T (x.adapt g).run past s :=
  Safe.then h fun _ _ _ q => q

/-- A part of an operation whose failures are told in another way, with what follows. -/
theorem Safe.adapted {Q : Except ε' α → Assertion} {x : ExceptT ε' (Program surroundings) α}
    {wrap : ε' → ε} (h : Safe C Q x.run past s)
    (ok : ∀ a past s, Q (.ok a) past s → Safe C T (f a).run past s)
    (error : ∀ failure past s, Q (.error failure) past s → T (.error (wrap failure)) past s) :
    Safe C T (x.adapt wrap >>= f).run past s := by
  refine Safe.andThen (Q := fun result past s => ∃ r : Except ε' α,
    result = r.mapError wrap ∧ Q r past s)
    (Safe.adapt (h.mono fun r _ _ q => ⟨r, rfl, q⟩)) ?_ ?_
  · intro a past s ends
    obtain ⟨r, e, q⟩ := ends
    cases r with
    | ok b =>
      cases e
      exact ok a past s q
    | error failure => cases e
  · intro failure past s ends
    obtain ⟨r, e, q⟩ := ends
    cases r with
    | ok b => cases e
    | error failure =>
      cases e
      exact error failure past s q

end

section
variable {P : Assertion} {past : List Exchange} {s : Shared} {r : Request}

/-- A request that is not for a lock. The job may rely on what it knows until the answer comes. -/
theorem Safe.call {Q : r.Reply → Assertion} (stable : Stable C P)
    (enter : ∀ s : Shared, s.enter C.job r = s) (h : P past s)
    (answer : ∀ s, P past s → C.invariant s → C.fit past s r ∧
      ∀ reply s', s.Answers C.job r reply s' → C.allow s s' ∧
        Q reply (past ++ [⟨r, reply, s.store⟩]) s') :
    Safe C Q (Program.call (I := surroundings) r) past s := by
  intro s₁ rely₁ inv₁
  refine ⟨(enter s₁).symm ▸ C.allow_refl inv₁, fun s₂ rely₂ inv₂ => ?_⟩
  rw [enter] at rely₂
  exact answer s₂ (stable (C.rely_trans rely₁ rely₂) inv₂ h) inv₂

theorem Safe.ask {Q : Except Failure r.Reply → Assertion} (stable : Stable C P)
    (enter : ∀ s : Shared, s.enter C.job r = s) (h : P past s)
    (answer : ∀ s, P past s → C.invariant s → C.fit past s r ∧
      ∀ reply s', s.Answers C.job r reply s' → C.allow s s' ∧
        Q (.ok reply) (past ++ [⟨r, reply, s.store⟩]) s') :
    Safe C Q (Procedure.ask r).run past s :=
  Safe.then (Safe.call stable enter h answer) fun _ _ _ q => q

end

section
variable {P : Assertion} {past : List Exchange} {s : Shared} {t : Transaction}

theorem Safe.transact {Q : Except Failure t.Reply → Assertion} (stable : Stable C P)
    (h : P past s) (answer : ∀ s, P past s → C.invariant s → C.fit past s (.transact t) ∧
      (Carries s.store t →
        C.allow s { s with store := (t.apply s.store).2 } ∧
          Q (.ok (t.apply s.store).1) (past ++ [⟨.transact t, (t.apply s.store).1, s.store⟩])
            { s with store := (t.apply s.store).2 })) :
    Safe C Q (Procedure.transact t).run past s := by
  refine Safe.ask stable (fun _ => rfl) h fun s p inv => ?_
  obtain ⟨fit, answer⟩ := answer s p inv
  refine ⟨fit, ?_⟩
  rintro _ _ ⟨carries, rfl, rfl⟩
  exact answer carries

end
def Given (F : Exchange → Prop) (P : Assertion) : Assertion :=
  fun past s => (∀ e ∈ past, F e) → P past s

/-- Of a job that has seen an exchange of another kind the contract asks nothing. -/
structure Lenient (C : Contract) (F : Exchange → Prop) : Prop where
  allow : ∀ s s', C.allow s s'
  fit : ∀ {past s r}, (¬ ∀ e ∈ past, F e) → C.fit past s r

section
variable {F : Exchange → Prop} {past : List Exchange} {s : Shared} {Q : α → Assertion}
  {p : Program surroundings α} (lenient : Lenient C F)
include lenient

theorem Safe.refuted (h : ¬ ∀ e ∈ past, F e) : Safe C (fun a => Given F (Q a)) p past s := by
  induction p generalizing past s with
  | done a => exact fun all => absurd all h
  | ask r rest ih =>
    refine fun s₁ _ _ =>
      ⟨lenient.allow _ _, fun s₂ _ _ => ⟨lenient.fit h, fun reply s₃ _ => ?_⟩⟩
    exact ⟨lenient.allow _ _, ih reply fun all => h fun e mem =>
      all e (List.mem_append_left _ mem)⟩

/-- What is given of the exchanges so far may be used for what follows. -/
theorem Safe.given {P : Assertion} (h : Given F P past s)
    (next : P past s → Safe C (fun a => Given F (Q a)) p past s) :
    Safe C (fun a => Given F (Q a)) p past s := by
  by_cases all : ∀ e ∈ past, F e
  · exact next (h all)
  · exact .refuted lenient all

end
end ControlPlane.Concurrent
