import ControlPlane.Operation.Start
import ControlPlane.Proofs.Operation.Endings
import ControlPlane.Proofs.Operation.OperationDiscipline

/-!
# How a start ends

Hosts are tried one after the other. Between two attempts the machine is stopped and on no host, and
as long as no attempt has been made nothing has been sent.
-/

namespace ControlPlane.Concurrent
open Work Control Operation Procedure

variable {v : VmId} {job : Nat} {s : Shared} {past : List Exchange} {item : Item}
  {first view : View} {T : List Exchange → Prop} {α : Type} {ctx : Context} {id : VmId}
  {last : Option Failure}

structure Risen (starting : Vm) (host : HostId) (vm : Vm) : Prop where
  state : vm.state = .running
  host : vm.host = some host
  version : vm.version.toNat = starting.version.toNat + 1

theorem alone_finishStart {starting : Vm} {host : HostId} (spared : Spared T)
    (stored : view.vm = some starting) (state : starting.state = .starting)
    (there : starting.host = some host) (h : Stands v item view T past s) :
    Safe (alone v job) (fun result past s => ∃ vm, result = .ok vm ∧ Risen starting host vm ∧
      Stands v item ⟨some vm, view.volumes⟩ T past s) (finishStart starting).run past s := by
  have named := h.1.named stored
  have loads : ∀ {vm : Vm} {past s}, Risen starting host vm →
      Stands v item ⟨some vm, view.volumes⟩ T past s →
      Safe (alone v job) (fun result past s => ∃ vm, result = .ok vm ∧
        Risen starting host vm ∧
        Stands v item ⟨some vm, view.volumes⟩ T past s) (loadVm v).run past s := by
    intro vm past s risen h
    refine (alone_loadVm spared h).mono ?_
    intro result past s h
    obtain ⟨loaded, h⟩ := h
    exact ⟨vm, (loaded vm).2 rfl, risen, h⟩
  refine Safe.andThen (alone_advances spared named stored state rfl rfl
    (Transition.hosts_kept (by decide) there) h) ?_ ?_
  · intro running past s h
    obtain ⟨written, ⟨⟩, runs, counts, h⟩ := h
    have named' : running.id = v := h.1.named rfl
    have risen : Risen starting host running := by
      refine ⟨congrArg Vm.state runs, ?_, counts⟩
      rw [runs]
      exact there
    rw [named']
    split
    · refine Safe.andThen (Q := fun result past s => ∃ vm, result = .ok () ∧
        Risen starting host vm ∧ Stands v item ⟨some vm, view.volumes⟩ T past s)
        ((alone_write (t := .setCredentialsPending starting.id false) (Q := fun reply view' =>
          reply = .ok () ∧
          view' = ⟨some { running with credentialsPending := false }, view.volumes⟩)
          spared rfl rfl ?_ h).mono ?_) ?_ ?_
      · intro store same
        rw [named]
        exact Store.view_modifyVm rfl same
      · intro _ past s h
        obtain ⟨_, ⟨rfl, rfl⟩, h⟩ := h
        exact ⟨{ running with credentialsPending := false }, rfl,
          ⟨risen.state, risen.host, risen.version⟩, h⟩
      · intro _ past s h
        obtain ⟨vm, -, risen, h⟩ := h
        exact loads risen h
      · intro _ past s h
        obtain ⟨_, ⟨⟩, -⟩ := h
    · exact loads risen h
  · intro _ past s h
    obtain ⟨_, ⟨⟩, -⟩ := h

theorem alone_startOn {vm starting : Vm} {host : HostId} {f : StartAttempt → Body Vm}
    (stored : view.vm = some starting) (state : starting.state = .starting)
    (there : starting.host = some host) (h : Stands id item view T past s)
    (running : ∀ vm past s, Concludes (.start id) first item (.ok vm : Except Ending Vm)
      past s → Safe (alone id job) (Concludes (.start id) first item) (f (.running vm)).run past s)
    (refused : ∀ failure past s, Stands id item view (fun _ => True) past s →
      Safe (alone id job) (Concludes (.start id) first item) (f (.refused failure)).run past s) :
    Safe (alone id job) (Concludes (.start id) first item) (startOn ctx vm starting host >>= f).run
      past s := by
  refine Safe.andThen (Q := fun result past s => match result with
    | .ok (StartAttempt.running vm) =>
      Concludes (.start id) first item (.ok vm : Except Ending Vm) past s
    | .ok (StartAttempt.refused _) => Stands id item view (fun _ => True) past s
    | .error ending => Concludes (α := Vm) (.start id) first item (.error ending) past s) ?_ ?_
    fun _ _ _ h => h
  · refine Safe.ofProgram (alone_sendResolved first (by decide) h) ?_
    intro resolution past s h
    cases resolution with
    | unknown failure => exact ⟨view, ⟨starting, stored, state⟩, h⟩
    | failed failure => exact Stands.forget h
    | succeeded =>
      refine alone_query (Program.Within.call trivial) h ?_
      intro finalized past s h
      cases finalized with
      | error failure =>
        refine alone_query (forceStop_within ..) h ?_
        exact fun _ _ _ h => Stands.forget h
      | ok _ =>
        refine Safe.adapted (alone_finishStart spared_true stored state there
          (Stands.forget h)) ?_ ?_
        · intro running past s h
          obtain ⟨_, ⟨⟩, risen, h⟩ := h
          exact ⟨⟨some running, view.volumes⟩, ⟨running, rfl, risen.state⟩, h⟩
        · intro _ past s h
          obtain ⟨_, ⟨⟩, -⟩ := h
  · intro result past s h
    rcases result with vm | failure
    · exact running vm past s h
    · exact refused failure past s h

/-- A machine that may be started: it is stopped and on no host, and before the first attempt it is
as it was, with nothing sent. -/
structure Ready (id : VmId) (item : Item) (first : View) (last : Option Failure) (vm : Vm)
    (volumes : List Volume) (past : List Exchange) (s : Shared) : Prop where
  stands : Stands id item ⟨some vm, volumes⟩ (fun past => last = none → Unsent past) past s
  stopped : vm.state = .stopped
  free : vm.host = none
  untouched : last = none → first = ⟨some vm, volumes⟩

theorem spared_before : Spared fun past => last = none → Unsent past :=
  fun _ _ quiet unsent e => spared_unsent quiet (unsent e)

theorem lasting_ready {vm : Vm} {volumes : List Volume} :
    Lasting (alone id job) Request.Silent (Ready id item first last vm volumes) where
  stable _ _ _ rely inv h := ⟨stable_lies rely inv h.stands, h.stopped, h.free, h.untouched⟩
  fit _ _ _ := trivial
  keeps silent h :=
    ⟨Lies.silent spared_before silent h.stands, h.stopped, h.free, h.untouched⟩

theorem Ready.rests {vm : Vm} {volumes : List Volume} {failure : Failure}
    (h : Ready id item first last vm volumes past s) :
    Concludes (α := α) (.start id) first item (.error (.failed failure)) past s :=
  ⟨_, ⟨vm, rfl, h.stopped, h.free⟩, h.stands.forget⟩

/-- Without a host to try, a start ends as its attempts so far tell. -/
theorem Ready.outOfHosts {vm : Vm} {volumes : List Volume}
    (h : Ready id item first last vm volumes past s) (v : VmId) :
    Concludes (α := α) (.start id) first item (.error (outOfHosts v last)) past s := by
  cases last with
  | some failure => exact h.rests
  | none =>
    have same := h.untouched rfl
    refine ⟨⟨h.stands.1.began, h.stands.1.filed, ?_⟩, h.stands.2 rfl⟩
    rw [same]
    exact h.stands.1.view

theorem alone_tryStart {vm current : Vm} {volumes : List Volume} (named : vm.id = id)
    (remaining : Nat) (excluded : Placement.Exclusions)
    (h : Ready id item first last current volumes past s) :
    Safe (alone id job) (Concludes (.start id) first item)
      (tryStart ctx vm remaining excluded last).run past s := by
  -- Every attempt that is refused leaves the machine ready for the next one, with a failure to
  -- tell.
  induction remaining generalizing excluded last current past s with
  | zero => exact h.outOfHosts vm.id
  | succ remaining ih =>
    refine Safe.look (Program.Within.demand ⟨trivial, fun no => no⟩) (fun _ silent => silent.1)
      lasting_ready h ?_ fun _ _ _ h => h.rests
    intro chosen past s _ h
    cases chosen with
    | none => exact h.outOfHosts vm.id
    | some host =>
      obtain ⟨h, stopped, free, untouched⟩ := h
      simp only [named]
      refine alone_load spared_before h ?_ ?_
      · intro loaded past s stored h
        cases stored
        simp only [refusing]
        obtain ⟨lastHost, hosted⟩ :=
          Transition.hosts_taken current host (by decide : State.HoldsHost .starting)
        refine alone_moving spared_before rfl rfl stopped rfl rfl hosted h ?_
        intro starting past s starts h
        have state : starting.state = .starting := congrArg Vm.state starts
        refine alone_startOn rfl state (congrArg Vm.host starts) h (fun _ _ _ h => h) ?_
        intro failure past s h
        refine alone_moving spared_true rfl rfl state
          rfl rfl (Transition.hosts_left none (by decide)) h ?_
        intro written past s stops h
        refine ih _ ⟨⟨h.1, fun e => by cases e⟩, congrArg Vm.state stops,
          congrArg Vm.host stops, ?_⟩
        exact fun e => by cases e
      · intro failure past s h
        exact Ready.rests ⟨h, stopped, free, untouched⟩

theorem alone_start (placed : ∀ vm, first.vm = some vm → vm.Placed)
    (h : Waits id first past s) :
    Safe (alone id job) (fun result => Told (.start id) first result.isOk)
      (start ctx id).run past s := by
  refine alone_underWork (.start id) h ?_
  intro item past s h
  refine alone_load spared_unsent h ?_ fun _ _ _ h => h
  intro vm past s stored h
  refine Safe.ofAdapted (fun _ stated => ?_) fun _ _ => h
  have stopped : vm.state = .stopped := List.mem_singleton.1 (mem_of_requireState stated)
  have named := h.1.named stored
  refine alone_look (requireGuru_within vm.role) spared_unsent h ?_ fun _ _ _ h => h
  intro _ past s h
  have free : vm.host = none := by
    have holds := (placed vm stored).not
    rw [stopped, Bool.not_eq_true, Option.isSome_eq_false_iff, Option.isNone_iff_eq_none] at holds
    exact holds.2 (by decide)
  have same : first = ⟨some vm, first.volumes⟩ := View.ext stored rfl
  refine alone_tryStart named _ _ ⟨?_, stopped, free, fun _ => same⟩
  exact same ▸ ⟨h.1, fun _ => h.2⟩

end ControlPlane.Concurrent
