import ControlPlane.Proofs.Transition.VersionRace

/-!
# The record of a machine over many transitions

Attempts at transitions, one after the other, whatever they ask for. An attempt that succeeds takes
the record of its machine one step along the table. Any other attempt leaves the whole store as it
was. So it is enough to look at one attempt.
-/

namespace ControlPlane
open Control Concurrent

structure Vm.Advances (t : Transition) (vm vm' : Vm) : Prop where
  expected : vm.state = t.expected
  pinned : ∀ version, t.version = some version → version = vm.version
  edge : vm.state.next? t.event = some vm'.state
  host : vm'.host = if vm'.state.HoldsHost then t.host.or vm.host else none
  placed : vm'.Placed
  left : ∀ host, vm.host = some host → vm'.host ≠ some host → vm'.lastHost = some host
  stayed : (∀ host, vm.host = some host → vm'.host = some host) → vm'.lastHost = vm.lastHost
  version : vm'.version = vm.version + 1
  rest : vm' = { vm with
    state := vm'.state, host := vm'.host, lastHost := vm'.lastHost, version := vm'.version }

namespace Transition

theorem hosts_ok {vm : Vm} {next : State} {requested host lastHost : Option HostId}
    (h : hosts vm next requested = .ok (host, lastHost)) :
    (host = if next.HoldsHost then requested.or vm.host else none) ∧
      (host.isSome ↔ next.HoldsHost) ∧
      (∀ here, vm.host = some here → host ≠ some here → lastHost = some here) ∧
      ((∀ here, vm.host = some here → host = some here) → lastHost = vm.lastHost) := by
  unfold hosts at h
  by_cases holds : next.HoldsHost
  · rw [if_pos holds] at h
    cases taken : requested.or vm.host with
    | none => simp [taken] at h
    | some there =>
      simp only [taken, Except.ok.injEq, Prod.mk.injEq] at h
      obtain ⟨rfl, rfl⟩ := h
      refine ⟨by rw [if_pos holds], by simp [holds], fun here was left => ?_, fun stayed => ?_⟩
      · have moved : vm.host ≠ some there := fun e => left (e.symm.trans was)
        rw [if_neg moved, was, Option.some_or]
      · cases was : vm.host with
        | none => simp
        | some here =>
          rw [if_pos (stayed here was).symm]
  · rw [if_neg holds] at h
    cases h
    refine ⟨by rw [if_neg holds], by simp [holds], fun here was _ => ?_, fun stayed => ?_⟩
    · rw [was, Option.some_or]
    · cases was : vm.host with
      | none => rfl
      | some here => cases stayed here was

theorem advances_of_check {t : Transition} {vm : Vm} {u : StateUpdate}
    (checked : t.check vm = .ok u) :
    vm.Advances t (u.apply vm) := by
  obtain ⟨next, legal, pinned, expected, hosted, e⟩ := check_ok checked
  have state : u.state = next := by rw [e]
  obtain ⟨host, placed, left, stayed⟩ := hosts_ok hosted
  subst state
  exact {
    expected := expected
    pinned := fun version given => by rwa [given, Option.getD_some] at pinned
    edge := expected ▸ legal
    host := host
    placed := placed
    left := left
    stayed := stayed
    version := rfl
    rest := rfl }

end Transition

/-- The store carries transactions out, and all else is answered as the oracle says. -/
def Concurrent.Oracle.serve (oracle : Oracle) : (r : Request) → StateM Store r.Reply
  | .transact t => fun s => t.apply s
  | r => pure (oracle r)

/-- An attempt at a transition, with what is answered where the store does not decide it. -/
structure Attempt where
  transition : Transition
  oracle : Oracle

namespace Attempt
variable {a : Attempt} {s : Store} {v : VmId} {vm : Vm}

/-- What an attempt gives, and the store that it leaves. -/
def outcome (a : Attempt) (s : Store) : Except Failure Vm × Store :=
  (Program.run a.oracle.serve a.transition.run.run : StateM Store (Except Failure Vm)) s

def Succeeds (a : Attempt) (s : Store) (v : VmId) : Prop :=
  a.transition.vm = v ∧ (a.outcome s).1.isOk

instance (a : Attempt) (s : Store) (v : VmId) : Decidable (a.Succeeds s v) := by
  unfold Succeeds; infer_instance

/-- What an attempt comes to: it is refused and has no effect, or it advances one record. -/
inductive Fares (a : Attempt) (s : Store) : Prop
  | refused (failure : Failure) (outcome : a.outcome s = (.error failure, s))
  | accepted (vm vm' : Vm) (stored : s.vm? a.transition.vm = some vm)
      (advances : vm.Advances a.transition vm')
      (outcome : a.outcome s = (.ok vm', { s with vms := s.vms.insert vm' }))

theorem fares (a : Attempt) (s : Store) : a.Fares s := by
  have start : a.outcome s =
      (Program.run a.oracle.serve (a.transition.afterRead (s.vm? a.transition.vm)) :
        StateM Store (Except Failure Vm)) s := by
    unfold outcome
    rw [Transition.run_eq]
    rfl
  cases stored : s.vm? a.transition.vm with
  | none =>
    rw [stored] at start
    exact .refused _ start
  | some vm =>
    rw [stored] at start
    simp only [Transition.afterRead] at start
    cases checked : a.transition.check vm with
    | error failure =>
      rw [checked] at start
      exact .refused failure start
    | ok u =>
      rw [checked] at start
      change a.outcome s =
        (Program.run a.oracle.serve (a.transition.afterPass u (a.oracle (.pass .beforeSwap))) :
          StateM Store (Except Failure Vm)) s at start
      cases passed : a.oracle (.pass .beforeSwap) with
      | error failure =>
        rw [passed] at start
        exact .refused failure start
      | ok _ =>
        rw [passed] at start
        obtain ⟨next, -, -, expected, -, e⟩ := Transition.check_ok checked
        have here : s.vm? u.vm = some vm := by rw [e]; exact stored
        have fits : u.Matches vm := by rw [e]; exact ⟨expected, rfl⟩
        change a.outcome s =
          (Program.run a.oracle.serve (a.transition.afterSwap (s.swap u).1) :
            StateM Store (Except Failure Vm)) (s.swap u).2 at start
        rw [Store.swap_matching here fits] at start
        exact .accepted vm (u.apply vm) stored (Transition.advances_of_check checked) start

theorem refused_changes_nothing {failure : Failure} (h : (a.outcome s).1 = .error failure) :
    (a.outcome s).2 = s := by
  cases a.fares s with
  | refused failure outcome => rw [outcome]
  | accepted vm vm' stored advances outcome =>
    rw [outcome] at h
    cases h

theorem record (a : Attempt) (stored : s.vm? v = some vm) :
    ∃ vm', (a.outcome s).2.vm? v = some vm' ∧
      (a.Succeeds s v ∧ vm.Advances a.transition vm' ∧ (a.outcome s).1 = .ok vm' ∨
        ¬ a.Succeeds s v ∧ vm' = vm) := by
  cases a.fares s with
  | refused failure outcome =>
    have fails : ¬ a.Succeeds s v :=
      fun h => by simp [Succeeds, outcome, Except.isOk, Except.toBool] at h
    exact ⟨vm, by rw [outcome]; exact stored, .inr ⟨fails, rfl⟩⟩
  | accepted w w' there advances outcome =>
    have same : w'.id = w.id := by rw [advances.rest]
    have subject : w'.id = a.transition.vm := same.trans (Store.id_of_vm? there)
    by_cases here : a.transition.vm = v
    · rw [here, stored] at there
      cases there
      refine ⟨w', ?_, .inl ⟨⟨here, by rw [outcome]; rfl⟩, advances, by rw [outcome]⟩⟩
      rw [outcome, Store.vm?_insert, if_pos (subject.trans here)]
    · refine ⟨vm, ?_, .inr ⟨fun h => here h.1, rfl⟩⟩
      rw [outcome, Store.vm?_insert, if_neg (subject ▸ here)]
      exact stored

def all (s : Store) (attempts : List Attempt) : Store :=
  attempts.foldl (fun s a => (a.outcome s).2) s

def successes (v : VmId) : Store → List Attempt → Nat
  | _, [] => 0
  | s, a :: attempts => (if a.Succeeds s v then 1 else 0) + successes v (a.outcome s).2 attempts

theorem all_append (s : Store) (before after : List Attempt) :
    all s (before ++ after) = all (all s before) after := List.foldl_append

theorem successes_append (s : Store) (before after : List Attempt) :
    successes v s (before ++ after) = successes v s before + successes v (all s before) after := by
  induction before generalizing s with
  | nil => simp [successes, all]
  | cons a before ih =>
    simp only [List.cons_append, successes, ih, Nat.add_assoc]
    rfl

theorem record_all (attempts : List Attempt) (stored : s.vm? v = some vm) (placed : vm.Placed)
    (room : vm.version.toNat + successes v s attempts < UInt64.size) :
    ∃ now, (all s attempts).vm? v = some now ∧ now.Placed ∧
      now.version.toNat = vm.version.toNat + successes v s attempts := by
  induction attempts generalizing s vm with
  | nil => exact ⟨vm, stored, placed, rfl⟩
  | cons a attempts ih =>
    simp only [successes] at room ⊢
    obtain ⟨vm', stored', ⟨succeeds, advances, -⟩ | ⟨fails, rfl⟩⟩ := a.record stored
    · rw [if_pos succeeds] at room ⊢
      have version : vm'.version.toNat = vm.version.toNat + 1 := by
        rw [advances.version]
        exact UInt64.toNat_succ (by omega)
      obtain ⟨now, stored', placed, counted⟩ := ih stored' advances.placed (by omega)
      exact ⟨now, stored', placed, by omega⟩
    · rw [if_neg fails] at room ⊢
      obtain ⟨now, stored', placed, counted⟩ := ih stored' placed (by omega)
      exact ⟨now, stored', placed, by omega⟩

/-- A machine that was recorded with version zero, after any of some attempts. A host is recorded
exactly while the state holds one, and the version is the number of transitions that were accepted.
An attempt that is accepted advances the record, and one that is refused changes nothing. -/
theorem every_record_follows (stored : s.vm? v = some vm) (fresh : vm.version = 0)
    (placed : vm.Placed) (attempts : List Attempt) (room : successes v s attempts < UInt64.size)
    (before after : List Attempt) (split : attempts = before ++ after) :
    ∃ now, (all s before).vm? v = some now ∧ now.Placed ∧
      now.version.toNat = successes v s before ∧
      ∀ a rest, after = a :: rest → ∃ next, (all s (before ++ [a])).vm? v = some next ∧
        (a.Succeeds (all s before) v ∧ now.Advances a.transition next ∨
          ¬ a.Succeeds (all s before) v ∧ next = now) ∧
        ∀ failure, (a.outcome (all s before)).1 = .error failure →
          all s (before ++ [a]) = all s before := by
  have zero : vm.version.toNat = 0 := by rw [fresh]; rfl
  rw [split, successes_append] at room
  obtain ⟨now, stored', placed', counted⟩ := record_all before stored placed (by omega)
  refine ⟨now, stored', placed', by omega, fun a rest e => ?_⟩
  have one : all s (before ++ [a]) = (a.outcome (all s before)).2 := all_append s before [a]
  rw [one]
  obtain ⟨next, stored'', moved⟩ := a.record stored'
  refine ⟨next, stored'', ?_, fun failure => refused_changes_nothing⟩
  rcases moved with ⟨succeeds, advances, -⟩ | same
  · exact .inl ⟨succeeds, advances⟩
  · exact .inr same

/-- A start on one host and a move to another, then a call with a version that has passed, a stop
that fails before it is written, and the same stop again. -/
def journey : List Attempt :=
  [⟨⟨sleeper.id, .stopped, .startRequested, some ⟨5⟩, some 0⟩, .silent⟩,
   ⟨⟨sleeper.id, .starting, .operationSucceeded, none, none⟩, .silent⟩,
   ⟨⟨sleeper.id, .running, .operationSucceeded, some ⟨6⟩, none⟩, .silent⟩,
   ⟨⟨sleeper.id, .running, .stopRequested, none, some 0⟩, .silent⟩,
   ⟨⟨sleeper.id, .running, .stopRequested, none, none⟩, fun
      | .pass point => .error (.fault (.injected (Enumeration.name point)))
      | r => Oracle.silent r⟩,
   ⟨⟨sleeper.id, .running, .stopRequested, none, none⟩, .silent⟩,
   ⟨⟨sleeper.id, .stopping, .operationSucceeded, none, none⟩, .silent⟩]

theorem every_record_of_a_journey_follows :
    successes sleeper.id { vms := .ofList [sleeper] } journey = 5 ∧
      ∃ now, (all { vms := .ofList [sleeper] } journey).vm? sleeper.id = some now ∧
      now.Placed ∧ now.version.toNat = 5 ∧ now.state = .stopped ∧
      now.lastHost = some ⟨6⟩ := by
  have five : successes sleeper.id { vms := .ofList [sleeper] } journey = 5 := by decide +kernel
  have ends : ((all { vms := .ofList [sleeper] } journey).vm? sleeper.id).all
      (fun now => now.state = .stopped ∧ now.lastHost = some ⟨6⟩) = true := by decide +kernel
  obtain ⟨now, stored, placed, counted, -⟩ := every_record_follows
    (by decide : Store.vm? { vms := .ofList [sleeper] } sleeper.id = some sleeper) rfl
    (by unfold Vm.Placed; decide) journey (by rw [five]; decide) journey [] (List.append_nil _).symm
  rw [stored, Option.all_some, decide_eq_true_eq] at ends
  exact ⟨five, now, stored, placed, counted.trans five, ends⟩

end Attempt
end ControlPlane
