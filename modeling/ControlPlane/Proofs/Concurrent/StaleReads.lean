import ControlPlane.Proofs.Concurrent.ContractInSystem
import ControlPlane.Proofs.Store.Transactions

/-!
# Records that were read some time ago

By the time that a job acts on a record it may have been overtaken. But versions only grow, and as
long as the version is the one that was read, the state and the hosts are the ones that were read.
-/

namespace ControlPlane

def Vm.Since (w vm : Vm) : Prop := w.version.toNat < vm.version.toNat ∨ vm.course = w.course

def Store.Since (a b : Store) : Prop :=
  ∀ v w, a.vm? v = some w → ∃ vm, b.vm? v = some vm ∧ w.Since vm

section
variable {w x y : Vm} {a b c : Store}

theorem Vm.Since.refl (vm : Vm) : vm.Since vm := .inr rfl

theorem Vm.Since.trans (h : w.Since x) (h' : x.Since y) : w.Since y := by
  have version : ∀ {p q : Vm}, q.course = p.course → q.version.toNat = p.version.toNat :=
    fun same => congrArg (·.version.toNat) same
  rcases h with less | same <;> rcases h' with less' | same'
  · exact .inl (Nat.lt_trans less less')
  · exact .inl (version same' ▸ less)
  · exact .inl (version same ▸ less')
  · exact .inr (same'.trans same)

theorem Vm.Since.course_eq (h : w.Since x) (same : x.version = w.version) :
    x.course = w.course := by
  rcases h with less | same'
  · rw [same] at less
    exact absurd less (Nat.lt_irrefl _)
  · exact same'

theorem Store.Since.refl (s : Store) : s.Since s := fun _ w stored => ⟨w, stored, .refl w⟩

theorem Store.Since.trans (h : a.Since b) (h' : b.Since c) : a.Since c := by
  intro v w stored
  obtain ⟨x, stored', since⟩ := h v w stored
  obtain ⟨y, stored'', since'⟩ := h' v x stored'
  exact ⟨y, stored'', since.trans since'⟩

end

namespace Concurrent
open Control

theorem since_apply {s : Store} {t : Transaction} (carries : Carries s t) :
    s.Since (t.apply s).2 := by
  intro v vm stored
  refine ⟨t.onVm vm, by rw [Transaction.vm?_apply, stored, Option.map_some], ?_⟩
  rcases t.onVm_course vm with same | ⟨u, rfl, subject, fits, written⟩
  · exact .inr same
  · have room : vm.version.toNat + 1 < UInt64.size :=
      carries vm (by rw [subject, Store.id_of_vm? stored, stored]) fits
    left
    rw [written]
    change vm.version.toNat < (vm.version + 1).toNat
    rw [UInt64.toNat_succ room]
    exact Nat.lt_succ_self _

variable {τ ρ : Type} {W : Workload τ ρ} {store : Store} {sys sys' : System τ ρ}

theorem store_enter (s : Shared) (job : Nat) (r : Request) : (s.enter job r).store = s.store := by
  cases r <;> rfl

theorem Move.transacts (move : Move W sys sys') : sys'.shared.store = sys.shared.store ∨
    ∃ t, Carries sys.shared.store t ∧ sys'.shared.store = (t.apply sys.shared.store).2 := by
  cases move with
  | crash node => exact .inl rfl
  | step step =>
    cases step with
    | launch _ task => exact .inl rfl
    | make s before after k job asks idle => exact .inl (store_enter ..)
    | answer s s' before after k job reply asks waits answers =>
      rcases Shared.store_of_answers answers with same | ⟨t, rfl, same⟩
      · exact .inl same
      · exact .inr ⟨t, answers.1, same⟩

theorem Move.since (move : Move W sys sys') : sys.shared.store.Since sys'.shared.store := by
  rcases move.transacts with same | ⟨t, carries, same⟩
  · rw [same]
    exact .refl _
  · rw [same]
    exact since_apply carries

/-- What holds between the stores of any two moves holds between the store of each answer and the
last. -/
theorem past_along {L : Store → Store → Prop} (trans : ∀ {a b c}, L a b → L b c → L a c)
    (moves : ∀ {sys sys' : System τ ρ}, Move W sys sys' →
      L sys.shared.store sys'.shared.store)
    (reached : Reaches W (.start store) sys) :
    ∀ job ∈ sys.jobs, ∀ e ∈ job.past, L e.before sys.shared.store := by
  induction reached with
  | refl => exact fun _ mem => absurd mem List.not_mem_nil
  | @tail sys sys' reached move ih =>
    intro job mem e past
    have next := moves move
    have older : ∀ job ∈ sys.jobs, ∀ e ∈ job.past, L e.before sys'.shared.store :=
      fun job mem e past => trans (ih job mem e past) next
    cases move with
    | crash node => exact older job (List.mem_filter.1 mem).1 e past
    | step step =>
      cases step with
      | launch _ task =>
        rcases List.mem_cons.1 mem with rfl | mem
        · cases past
        · exact older job mem e past
      | make s before after k mover asks idle =>
        rcases mem_replaced mem with rfl | mem
        · exact older mover (by simp) e past
        · exact older job mem e past
      | answer s s' before after k mover reply asks waits answers =>
        rcases mem_replaced mem with rfl | mem
        · rcases List.mem_append.1 past with past | here
          · exact older mover (by simp) e past
          · cases List.mem_singleton.1 here
            exact next
        · exact older job mem e past

/-- Whenever a job got an answer, the store is one that has come of the store of that time. -/
theorem past_since (reached : Reaches W (.start store) sys) :
    ∀ job ∈ sys.jobs, ∀ e ∈ job.past, e.before.Since sys.shared.store :=
  past_along .trans Move.since reached

theorem hosts_of_reaches (reached : Reaches W (.start store) sys) :
    sys.shared.store.hosts = store.hosts := by
  induction reached with
  | refl => rfl
  | tail _ move ih =>
    rcases move.transacts with same | ⟨t, -, same⟩
    · rw [same, ih]
    · rw [same, (t.inventory_apply _).1, ih]

end Concurrent
end ControlPlane
