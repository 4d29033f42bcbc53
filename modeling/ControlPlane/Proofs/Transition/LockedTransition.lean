import ControlPlane.Proofs.Work.LockedRequests

/-!
# Transitions under the lock

A transition that brings a machine to rest may be made by whoever holds the lock of an item. One
that sends the machine on its way needs an open item, and leaves the machine in the state that the
item is about.
-/

namespace ControlPlane.Concurrent
open Work Control

variable {fit : List Exchange → Shared → Request → Prop} {job : Nat} {s s' : Shared}
  {c : Item} {P Q : State → UInt64 → Prop} {R : Assertion} {past : List Exchange}
  {t : Transition} {u : StateUpdate} {w : Transaction}

theorem Bound.write (h : Bound c P s) (names : w.names? = none) (closes : w.closes? = none)
    (noSwap : ∀ u, w ≠ .swap u) : Bound c P { s with store := (w.apply s.store).2 } := by
  intro x covers same vm' stored' moves
  obtain ⟨stored, isOpen, slot⟩ := covers
  rw [Transaction.item?_frame names closes] at stored
  rw [Transaction.openItem?_frame names closes] at slot
  rw [Transaction.vm?_apply] at stored'
  obtain ⟨vm, here, rfl⟩ := Option.map_eq_some_iff.1 stored'
  rcases onVm_cases w vm with ⟨state, -, version⟩ | ⟨u, e, -⟩
  · rw [state, version]
    exact h x ⟨stored, isOpen, slot⟩ same vm here (state ▸ moves)
  · exact absurd e (noSwap u)

theorem Upheld.safe_write (up : Upheld (discipline fit c.owner job) c R) (names : w.names? = none)
    (closes : w.closes? = none) (noSwap : ∀ u, w ≠ .swap u) (due : ∀ s, Due job s w)
    (fits : ∀ {past s}, R past s → Coherent s → fit past s (.transact w)) (h : R past s)
    (bound : Bound c P s) :
    Safe (discipline fit c.owner job) (fun _ past s => R past s ∧ Bound c P s)
      (Program.call (I := surroundings) (.transact w)) past s := by
  refine Safe.carry (f := .done) up.stable_bound ⟨h, bound⟩ (fun _ h inv => fits h.1 inv) ?_
  intro s h inv carries
  obtain ⟨h, bound⟩ := h
  have acts := (due s).acts carries
  exact ⟨⟨acts, (due s).coherent inv⟩, up.write names closes acts h,
    bound.write names closes noSwap⟩

def Expects (u : StateUpdate) (state : State) (version : UInt64) : Prop :=
  state = u.expectedState ∧ version = u.expectedVersion

/-- A swap leaves the machine in the state that it names. If it is refused, the machine is not as
expected. -/
theorem safe_swap (up : Upheld (discipline fit c.owner job) c R) (subject : u.vm = c.vm)
    (due : ∀ {past s}, R past s → Due job s (.swap u)) (h : R past s) (bound : Bound c P s) :
    Safe (discipline fit c.owner job)
      (Ends (fun written past s => written.id = c.vm ∧ R past s ∧
        Bound c (fun state _ => state = u.state) s) fun past s =>
        R past s ∧
        Bound c (fun state version => P state version ∧ ¬ Expects u state version) s)
      (.ask (.transact (.swap u)) t.afterSwap) past s := by
  refine Safe.carry up.stable_bound ⟨h, bound⟩
    (fun s h inv => up.fit (.inr ⟨u, rfl, subject⟩) h.1 inv) ?_
  intro s h inv carries
  obtain ⟨h, bound⟩ := h
  have acts := (due h).acts carries
  refine ⟨⟨acts, (due h).coherent inv⟩, ?_⟩
  have kept : R (past ++ [⟨.transact (.swap u), (s.store.swap u).1, s.store⟩])
      { s with store := (s.store.swap u).2 } := up.write rfl rfl acts h
  cases stored : s.store.vm? u.vm with
  | none =>
    have e := Store.swap_missing stored
    simp only [Transaction.apply, e] at kept ⊢
    exact ⟨kept, .of_amid (still_of_missing (subject ▸ stored)).amid⟩
  | some vm =>
    have hid : vm.id = c.vm := (Store.id_of_vm? stored).trans subject
    by_cases fits : u.Matches vm
    · have here : (s.store.swap u).2.vm? c.vm = some (u.apply vm) := by
        rw [Store.swap_matching stored fits, Store.vm?_insert]
        exact if_pos hid
      have moved : Bound c (fun state _ => state = u.state)
          { s with store := (s.store.swap u).2 } := .of_amid (.of_vm? here fun _ => rfl)
      have e := Store.swap_matching stored fits
      simp only [Transaction.apply, e] at kept moved ⊢
      exact ⟨hid, kept, moved⟩
    · have e := Store.swap_stale stored fits
      simp only [Transaction.apply, e] at kept ⊢
      refine ⟨kept, ?_⟩
      intro x covers same
      have here : s.store.vm? c.vm = some vm := subject ▸ stored
      exact .of_vm? here fun moves => ⟨bound x covers same vm here moves, fits⟩

/-- A transition leaves the machine in the state that its event leads to. One that is not pinned and
names a host only fails if the machine is in another state than expected. -/
theorem safe_transition (up : Upheld (discipline fit c.owner job) c R) (subject : t.vm = c.vm)
    (due : ∀ {past s vm u}, R past s → s.store.vm? c.vm = some vm → t.check vm = .ok u →
      ∀ {past s}, R past s → Due job s (.swap u)) (h : R past s) (bound : Bound c P s) :
    Safe (discipline fit c.owner job)
      (Ends (fun written past s => written.id = c.vm ∧ R past s ∧
        Bound c (fun state _ => t.expected.next? t.event = some state) s) fun past s =>
        R past s ∧ Bound c (fun state version => P state version ∧
          (t.version = none → t.host.isSome → (t.expected.next? t.event).isSome →
            state ≠ t.expected)) s) t.run.run past s := by
  rw [Transition.run_eq]
  refine Safe.observe trivial up.stable_bound ⟨h, bound⟩
    (fun s h inv => up.fit (.inl trivial) h.1 inv) ?_
  intro s found h inv answers
  obtain ⟨h, bound⟩ := h
  obtain ⟨-, rfl, -⟩ := answers
  have kept : R (past ++ [⟨.transact (.vm t.vm), s.store.vm? t.vm, s.store⟩]) s :=
    up.quiet trivial h
  simp only [Transaction.apply]
  generalize past ++ [(⟨.transact (.vm t.vm), s.store.vm? t.vm, s.store⟩ : Exchange)] =
    past at kept
  cases stored : s.store.vm? t.vm with
  | none => exact ⟨kept, .of_amid (still_of_missing (subject ▸ stored)).amid⟩
  | some vm =>
    have here : s.store.vm? c.vm = some vm := subject ▸ stored
    have read : Bound c (fun state version => P state version ∧ state = vm.state ∧
        version = vm.version) s := by
      intro x covers same
      exact .of_vm? here fun moves => ⟨bound x covers same vm here moves, rfl, rfl⟩
    simp only [Transition.afterRead]
    cases checked : t.check vm with
    | error failure =>
      refine ⟨kept, read.mono ?_⟩
      rintro state version ⟨p, rfl, rfl⟩
      refine ⟨p, ?_⟩
      intro free host legal expected
      obtain ⟨next, legal⟩ := Option.isSome_iff_exists.1 legal
      obtain ⟨⟨host, lastHost⟩, hosted⟩ : ∃ pair,
        Transition.hosts vm next t.host = .ok pair :=
        Transition.hosts_isOk fun _ => Option.isSome_or.trans (by rw [host, Bool.true_or])
      have ok := Transition.check_eq_ok legal (by rw [free]; rfl) expected hosted
      rw [checked] at ok
      cases ok
    | ok u =>
      have due := @due past s vm u kept here checked
      obtain ⟨next, legal, -, expected, -, e⟩ := Transition.check_ok checked
      have about : u.vm = c.vm := by rw [e]; exact subject
      have goes : u.state = next := by rw [e]
      have reads : Expects u vm.state vm.version := by
        rw [e]
        exact ⟨expected, rfl⟩
      refine Safe.observe trivial up.stable_bound ⟨kept, read⟩
        (fun s h inv => up.fit (.inl trivial) h.1 inv) ?_
      intro s passed h inv answers
      obtain ⟨rfl, -⟩ := answers
      refine (safe_swap up about due (up.quiet (r := .pass .beforeSwap) trivial h.1) h.2).mono ?_
      intro result past s ends
      cases result with
      | ok written =>
        refine ⟨ends.1, ends.2.1, ends.2.2.mono ?_⟩
        intro state _ same
        rw [same, goes, legal]
      | error failure =>
        refine ⟨ends.1, ends.2.mono ?_⟩
        rintro state version ⟨⟨p, rfl, rfl⟩, unexpected⟩
        exact absurd reads unexpected

theorem safe_calm (up : Upheld (discipline fit c.owner job) c R) (subject : t.vm = c.vm)
    (calm : ∀ next, t.expected.next? t.event = some next → ¬ next.InMotion)
    (h : R past s) (bound : Bound c P s) :
    Safe (discipline fit c.owner job)
      (Ends (fun _ past s => R past s ∧ Bound c Never s) fun past s =>
        R past s ∧ Bound c (fun state version => P state version ∧
          (t.version = none → t.host.isSome → (t.expected.next? t.event).isSome →
            state ≠ t.expected)) s) t.run.run past s := by
  refine (safe_transition up subject ?_ h bound).mono ?_
  · intro _ _ vm u _ _ checked _ _ _ moves
    obtain ⟨next, legal, -, -, -, e⟩ := Transition.check_ok checked
    rw [e] at moves
    exact absurd moves (calm next legal)
  · intro result past s ends
    cases result with
    | ok written => exact ⟨ends.2.1, ends.2.2.never fun state _ legal => calm state legal⟩
    | error failure => exact ends

theorem safe_stir {plan : Option Plan} {next : State} (up : Upheld (discipline fit c.owner job) c R)
    (working : ∀ {past s}, R past s → Working job c plan s) (subject : t.vm = c.vm)
    (legal : t.expected.next? t.event = some next)
    (leads : next = .migrating → ∀ {past s vm u}, R past s → s.store.vm? c.vm = some vm →
      t.check vm = .ok u → ∃ p, plan = some p ∧ u.host = some p.source ∧
        p.source ≠ p.destination)
    (h : R past s) (bound : Bound c Never s) :
    Safe (discipline fit c.owner job)
      (Ends (fun written past s => written.id = c.vm ∧ R past s ∧
        Bound c (fun state _ => state = next) s) fun past s =>
        R past s ∧ Bound c Never s) t.run.run past s := by
  refine (safe_transition up subject ?_ h bound).mono ?_
  · intro _ _ vm u h here checked _ s h' _
    obtain ⟨next', legal', -, -, -, e⟩ := Transition.check_ok checked
    rw [legal] at legal'
    cases legal'
    have about : u.vm = c.vm := by rw [e]; exact subject
    have goes : u.state = next := by rw [e]
    have working := working h'
    obtain ⟨x, covers, same, vm, planned⟩ := working.covered
    obtain ⟨y, known, -, owner⟩ := working.known
    have stored := covers.stored
    rw [same, known] at stored
    cases stored
    refine ⟨x, vm.trans about.symm, covers, same ▸ working.drew, ?_, ?_⟩
    · rw [owner, about]
      exact working.holds
    · intro migrates
      obtain ⟨p, e, rest⟩ := leads (goes ▸ migrates) h here checked
      exact ⟨p, planned.trans e, rest⟩
  · intro result past s ends
    cases result with
    | ok written =>
      refine ⟨ends.1, ends.2.1, ends.2.2.mono ?_⟩
      intro state _ same
      rw [legal] at same
      exact (Option.some.inj same).symm
    | error failure => exact ⟨ends.1, ends.2.mono fun _ _ no => no.1⟩

end ControlPlane.Concurrent
