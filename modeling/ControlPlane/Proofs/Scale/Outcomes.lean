import ControlPlane.Proofs.Migration.Outcomes
import ControlPlane.Proofs.Operation.MoveDiscipline

/-!
# How a scale-up ends

The retry loop asks for nothing more once an attempt has succeeded. So a scale-up that fails has
made no attempt that succeeded, and only such an attempt changes the resources of the machine.
-/

namespace ControlPlane

namespace Placement
variable {α β γ : Type} {won : β → Prop}

def Succeeds : (call : Call) → (calls α).Reply call → Prop
  | .attempt _, reply => Except.isOk reply = true
  | _, _ => False

/-- An attempt that succeeds is the last thing that is asked for, and without one there is no good
result. -/
def Clinches (won : β → Prop) : Program (calls α) β → Prop
  | .done b => ¬ won b
  | .ask call rest => ∀ reply, (Succeeds call reply → ∃ b, rest reply = .done b ∧ won b) ∧
      (¬ Succeeds call reply → Clinches won (rest reply))

theorem Clinches.bind {won' : γ → Prop} {p : Program (calls α) β}
    {f : β → Program (calls α) γ} (h : Clinches won p)
    (clinched : ∀ b, won b → ∃ c, f b = .done c ∧ won' c)
    (next : ∀ b, ¬ won b → Clinches won' (f b)) : Clinches won' (p >>= f) := by
  induction p with
  | done b => exact next b h
  | ask call rest ih =>
    intro reply
    constructor
    · intro succeeds
      obtain ⟨b, last, wins⟩ := (h reply).1 succeeds
      obtain ⟨c, ends, wins'⟩ := clinched b wins
      refine ⟨c, ?_, wins'⟩
      change rest reply >>= f = .done c
      rw [last]
      exact ends
    · intro fails
      exact ih reply ((h reply).2 fails)

theorem clinches_ask {call : Call} {rest : (calls α).Reply call → Program (calls α) β}
    (calm : ∀ reply, ¬ Succeeds (α := α) call reply)
    (next : ∀ reply, Clinches won (rest reply)) :
    Clinches won (.ask call rest) :=
  fun reply => ⟨fun succeeds => absurd succeeds (calm reply), fun _ => next reply⟩

def Won : Except Failure (Attempt α) → Prop
  | .ok (.succeeded ..) => True
  | _ => False

namespace Loop

theorem clinches_tryOn (target : Target) : Clinches Won (tryOn (α := α) target).run := by
  intro reply
  cases reply with
  | ok value => exact ⟨fun _ => ⟨_, rfl, trivial⟩, fun no => absurd rfl no⟩
  | error failure => exact ⟨fun no => (by cases no), fun _ no => no⟩

theorem clinches_tryElsewhere (excluded : Exclusions) :
    Clinches Won (tryElsewhere (α := α) excluded).run := by
  refine clinches_ask (fun _ no => no) ?_
  intro chosen
  rcases chosen with failure | chosen
  · exact fun no => no
  cases chosen with
  | none => exact fun no => no
  | some host =>
    refine clinches_ask (fun _ no => no) ?_
    intro room
    rcases room with failure | room
    · exact fun no => no
    cases room with
    | false => exact fun no => no
    | true => exact clinches_tryOn _

theorem clinches_attempt (growth : Growth) (excluded : Exclusions) :
    Clinches (fun result => Won (result.map Prod.fst))
      (attempt (α := α) growth excluded).run := by
  have paired : ∀ {excluded : Exclusions} {p : Loop α (Attempt α)}, Clinches Won p.run →
      Clinches (fun result => Won (result.map Prod.fst))
        (do return (← p, excluded) : Loop α (Attempt α × Exclusions)).run := by
    intro excluded p h
    refine Clinches.bind h ?_ ?_
    · rintro (failure | made) wins
      · exact wins.elim
      · exact ⟨_, rfl, wins⟩
    · rintro (failure | made) loses
      · exact loses
      · exact loses
  unfold attempt
  split
  · refine clinches_ask (fun _ no => no) ?_
    intro room
    rcases room with failure | room
    · exact fun no => no
    cases room with
    | false => exact paired (clinches_tryElsewhere _)
    | true => exact paired (clinches_tryOn _)
  · exact paired (clinches_tryElsewhere _)

theorem clinches_reverting {action : Loop α (Attempt α × Exclusions)}
    (h : Clinches (fun result => Won (result.map Prod.fst)) action.run) :
    Clinches (fun result => Won (result.map Prod.fst)) (reverting action).run := by
  refine Clinches.bind h ?_ ?_
  · rintro (failure | pair) wins
    · exact wins.elim
    · exact ⟨_, rfl, wins⟩
  · rintro (failure | pair) loses
    · refine clinches_ask (fun _ no => no) ?_
      rintro (failure | _) no
      · exact no
      · exact no
    · exact loses

/-- The loop is over as soon as an attempt has succeeded, and it succeeds just if one has. -/
theorem clinches_attempts (growth : Growth) (limit remaining : Nat) (excluded : Exclusions) :
    Clinches (fun result => Except.isOk result = true)
      (attempts (α := α) growth limit remaining excluded).run := by
  induction remaining generalizing excluded with
  | zero => exact fun no => by cases no
  | succ remaining ih =>
    refine clinches_ask (fun _ no => no) ?_
    rintro (failure | _)
    · exact fun no => by cases no
    refine Clinches.bind (p := (reverting (attempt growth excluded)).run)
      (clinches_reverting (clinches_attempt growth excluded)) ?_ ?_
    · rintro (failure | ⟨made, excluded⟩) wins
      · exact wins.elim
      cases made with
      | succeeded target value => exact ⟨_, rfl, rfl⟩
      | noRoom host => exact wins.elim
      | failed host failure => exact wins.elim
      | noCandidate => exact wins.elim
    · rintro (failure | ⟨made, excluded⟩) loses
      · exact fun no => by cases no
      cases made with
      | succeeded target value => exact absurd trivial loses
      | noRoom host =>
        refine clinches_ask (fun _ no => no) ?_
        rintro (failure | _)
        · exact fun no => by cases no
        · exact ih _
      | failed host failure =>
        refine clinches_ask (fun _ no => no) ?_
        rintro (failure | _)
        · exact fun no => by cases no
        · change Clinches _ (ExceptT.run (if failure.NeedsReconciliation then throw failure
            else attempts growth limit remaining (excluded.insert host)))
          split
          · exact fun no => by cases no
          · exact ih _
      | noCandidate =>
        refine clinches_ask (fun _ no => no) ?_
        rintro (failure | _) no
        · cases no
        · cases no

end Loop
end Placement

namespace Concurrent
open Work Control Operation Procedure Placement

variable {v : VmId} {job : Nat} {s : Shared} {past : List Exchange} {item : Item}
  {first view : View} {T : List Exchange → Prop} {α β : Type} {ctx : Context}
  {resources held : Resources} {id : VmId}

/-- A loop that is carried out call by call ends with a good result just if an attempt has
succeeded. -/
theorem Safe.clinch {C : Contract} {P Q : Assertion} {won : β → Prop} {p : Program (calls α) β}
    {answer : (call : Placement.Call) → Program surroundings ((calls α).Reply call)}
    (each : ∀ call past s, P past s → Safe C (fun reply past s =>
      (Succeeds call reply → Q past s) ∧ (¬ Succeeds call reply → P past s))
      (answer call) past s)
    (clinches : Clinches won p) (h : P past s) :
    Safe C (fun b past s => (won b → Q past s) ∧ (¬ won b → P past s))
      (p.run answer) past s := by
  induction p generalizing past s with
  | done b => exact ⟨fun wins => absurd wins clinches, fun _ => h⟩
  | ask call rest ih =>
    refine Safe.then (each call past s h) ?_
    intro reply past s h
    obtain ⟨after, still⟩ := h
    -- After an attempt that has succeeded nothing is left to ask, so the induction stops here.
    by_cases succeeds : Succeeds call reply
    · obtain ⟨b, last, wins⟩ := (clinches reply).1 succeeds
      rw [last]
      exact ⟨fun _ => after succeeds, fun no => absurd wins no⟩
    · exact ih reply ((clinches reply).2 succeeds) (still succeeds)

def Sized (v : VmId) (item : Item) (resources : Resources) (T : View → List Exchange → Prop) :
    Assertion := fun past s => ∃ vm volumes, vm.state = .running ∧ vm.resources = resources ∧
  Stands v item ⟨some vm, volumes⟩ (T ⟨some vm, volumes⟩) past s

/-- The machine runs with the resources that it had, and is as it was at the last command. -/
abbrev Unscaled (v : VmId) (item : Item) (first : View) (resources : Resources) : Assertion :=
  Sized v item resources (Steady v first)

theorem Held.planned {p : Plan} {now : Timestamp} (h : Held v item .started view past s) :
    Held v item .started view (past ++ [⟨.transact (.planItem item p now), (), s.store⟩])
      { s with store := s.store.planItem item p now } := by
  rw [← h.view]
  refine h.carried (t := .planItem item p now) (by rintro y ⟨⟩) ?_
  intro x same isOpen
  rw [Transaction.onItem, if_pos same.symm]
  exact ⟨rfl, isOpen⟩

theorem alone_recordPlan {p : Plan} (spared : Spared T) (h : Stands v item view T past s) :
    Safe (alone v job) (fun result past s => result = .ok () ∧ Stands v item view T past s)
      (Work.recordPlan item p).run past s := by
  refine Safe.andThen (Q := Ends (fun _ => Stands v item view T) fun _ _ => False)
    (Safe.ask stable_lies (fun _ => rfl) h ?_) ?_ fun _ _ _ => False.elim
  · intro s h _
    refine ⟨trivial, ?_⟩
    rintro _ _ rfl
    exact ⟨trivial, Lies.silent spared ⟨trivial, fun no => no⟩ h⟩
  intro now past s h
  refine Safe.transact stable_lies h ?_
  intro s h _
  refine ⟨trivial, ?_⟩
  intro _
  exact ⟨trivial, rfl, h.1.planned, spared (fun no => no) h.2⟩

/-- A machine that is moved before it grows keeps what it has. -/
theorem alone_moveForScale {vm : Vm} {destination : HostId} (stored : view.vm = some vm)
    (running : vm.state = .running) (has : vm.resources = held)
    (h : Stands v item view (Steady v first view) past s) :
    Safe (alone v job) (Ends (fun _ => Sized v item held fun _ _ => True)
      (Unscaled v item first held)) (moveForScale ctx item vm destination).run past s := by
  have named := h.1.named stored
  have same : view = ⟨some vm, view.volumes⟩ := View.ext stored rfl
  have unscaled : ∀ {past s}, Stands v item view (Steady v first view) past s →
      Unscaled v item first held past s := by
    intro past s h
    rw [same] at h
    exact ⟨vm, view.volumes, running, has, h⟩
  refine Safe.ofExcept (fun source _ => ?_) fun _ _ => unscaled h
  refine Safe.andThen (Safe.within (Migration.plan_within ⟨vm.id, source, destination, ∅⟩)
    (fun _ silent => silent.1) (lasting_silent spared_steady) h) ?_ fun _ _ _ h => unscaled h.2
  intro p past s h
  obtain ⟨subject, h⟩ := h
  refine Safe.andThen (alone_check ((subject p rfl).trans named) spared_steady h) ?_
    fun _ _ _ h => unscaled h.1
  rintro ⟨moving, targets⟩ past s ⟨h, checked⟩
  obtain ⟨stored', movable⟩ := checked _ rfl
  rw [stored] at stored'
  cases stored'
  refine Safe.andThen (alone_recordPlan spared_steady h) ?_ ?_
  · intro _ past s h
    obtain ⟨-, h⟩ := h
    refine Safe.ofProgram (Q := Arrives v item first view p moving)
      (alone_compute movable stored h) ?_
    rintro ((failure | failure | failure) | moved) past s ends
    · exact ends.elim
    · exact unscaled ends
    · exact unscaled ends
    · obtain ⟨runs, -, keeps, -, volumes, h⟩ := ends
      exact ⟨moved, volumes, runs, keeps.trans has, h⟩
  · intro _ past s h
    obtain ⟨⟨⟩, -⟩ := h

theorem alone_enlarge {vm : Vm} {volumes : List Volume} (resources : Resources) (spared : Spared T)
    (h : Stands id item ⟨some vm, volumes⟩ T past s) :
    Safe (alone id job) (fun result past s => result = .ok { vm with resources := resources } ∧
        Stands id item ⟨some { vm with resources := resources }, volumes⟩ T past s)
      (do demand (.transact (.setResources id resources)) rfl; loadVm id : Procedure Vm).run
      past s := by
  refine Safe.andThen (alone_write (t := .setResources id resources) (Q := fun reply view' =>
    reply = .ok () ∧ view' = ⟨some { vm with resources := resources }, volumes⟩)
    spared rfl rfl (fun _ same => Store.view_modifyVm rfl same) h) ?_ ?_
  · intro _ past s h
    obtain ⟨_, ⟨-, rfl⟩, h⟩ := h
    refine (alone_loadVm spared h).mono fun result past s h => ?_
    exact ⟨(h.1 _).2 rfl, h.2⟩
  · intro _ past s h
    obtain ⟨_, ⟨⟨⟩, -⟩, -⟩ := h

theorem alone_scaleOn (resources : Resources) {target : Placement.Target}
    (h : Unscaled id item first held past s) :
    Safe (alone id job) (Ends (fun _ => Sized id item resources fun _ _ => True)
      (Unscaled id item first held)) (scaleOn ctx item id resources target).run past s := by
  obtain ⟨vm, volumes, running, has, h⟩ := h
  have unscaled : ∀ {past s},
      Stands id item ⟨some vm, volumes⟩ (Steady id first ⟨some vm, volumes⟩) past s →
      Unscaled id item first held past s := fun h => ⟨vm, volumes, running, has, h⟩
  refine Safe.andThen (alone_loadVm spared_steady h) ?_ fun _ _ _ h => unscaled h.2
  intro loaded past s h
  obtain ⟨found, h⟩ := h
  have same : some vm = some loaded := (found loaded).1 rfl
  cases same
  refine Safe.andThen (Q := Ends (fun _ => Sized id item held fun _ _ => True)
    (Unscaled id item first held)) ?_ ?_ fun _ _ _ h => h
  · cases target with
    | inPlace host => exact ⟨vm, volumes, running, has, Stands.forget h⟩
    | migrate destination => exact alone_moveForScale rfl running has h
  intro asked past s h
  obtain ⟨vm, volumes, running, has, h⟩ := h
  refine Safe.andThen (alone_dispatch first (by decide) target.host _ _ h) ?_ ?_
  · intro _ past s h
    refine (alone_enlarge resources spared_steady h).mono fun result past s h => ?_
    obtain ⟨rfl, h⟩ := h
    exact ⟨{ vm with resources := resources }, volumes, running, rfl, Stands.forget h⟩
  · intro failure past s h
    exact ⟨vm, volumes, running, has, h⟩

theorem lasting_unscaled : Lasting (alone v job) Request.Silent (Unscaled v item first held) where
  stable := by
    rintro past s s' rely inv ⟨vm, volumes, running, has, h⟩
    exact ⟨vm, volumes, running, has, stable_lies rely inv h⟩
  fit _ _ _ := trivial
  keeps := by
    rintro r reply past s silent ⟨vm, volumes, running, has, h⟩
    exact ⟨vm, volumes, running, has, Lies.silent spared_steady silent h⟩

theorem Unscaled.within {P : α → Prop} {p : Program surroundings α}
    (within : p.Within Request.Silent P) (h : Unscaled v item first held past s) :
    Safe (alone v job) (fun _ => Unscaled v item first held) p past s :=
  (Safe.within within (fun _ silent => silent.1) lasting_unscaled h).mono fun _ _ _ h => h.2

theorem Unscaled.account {t : Transaction} (names : t.names? = none) (closes : t.closes? = none)
    (same : ∀ store : Store, (t.apply store).2.view v = store.view v)
    (h : Unscaled v item first held past s) :
    Safe (alone v job) (fun _ => Unscaled v item first held) (Procedure.transact t).run past s := by
  obtain ⟨vm, volumes, running, has, h⟩ := h
  refine Safe.then (alone_write (Q := fun _ view' => view' = ⟨some vm, volumes⟩)
    spared_steady names closes (fun store here => (same store).trans here) h) ?_
  intro reply past s h
  obtain ⟨_, rfl, h⟩ := h
  exact ⟨vm, volumes, running, has, h⟩

theorem alone_answerCall (resources : Resources) {growth : Placement.Growth} (call : Placement.Call)
    (h : Unscaled growth.vm item first held past s) :
    Safe (alone growth.vm job) (fun reply past s =>
      (Succeeds call reply → Sized growth.vm item resources (fun _ _ => True) past s) ∧
      (¬ Succeeds call reply → Unscaled growth.vm item first held past s))
      (answerCall ctx item resources growth call) past s := by
  cases call with
  | increment =>
    exact (h.account rfl rfl fun _ => rfl).mono fun _ _ _ h => ⟨fun no => no.elim, fun _ => h⟩
  | decrement =>
    exact (h.account rfl rfl fun _ => rfl).mono fun _ _ _ h => ⟨fun no => no.elim, fun _ => h⟩
  | hasRoom host =>
    refine (h.within (Program.Within.call (r := .hasRoom host growth.delta)
      ⟨trivial, fun no => no⟩)).mono ?_
    exact fun _ _ _ h => ⟨fun no => no.elim, fun _ => h⟩
  | selectHost excluded =>
    refine (h.within (Program.Within.call (r := .selectHost growth.wanted excluded)
      ⟨trivial, fun no => no⟩)).mono ?_
    exact fun _ _ _ h => ⟨fun no => no.elim, fun _ => h⟩
  | attempt target =>
    refine (alone_scaleOn resources h).mono ?_
    intro result past s h
    rcases result with failure | vm
    · exact ⟨fun no => (by cases no), fun _ => h⟩
    · exact ⟨fun _ => h, fun no => absurd rfl no⟩

theorem alone_scaleBody (h : Stands id item first Unsent past s) :
    Safe (alone id job) (Concludes (.scale id resources) first item)
      (scaleBody ctx id resources item).run past s := by
  refine alone_load spared_unsent h ?_ fun _ _ _ h => h
  intro vm past s stored h
  refine Safe.ofAdapted (fun _ stated => ?_) fun _ _ => h
  have running : vm.state = .running := List.mem_singleton.1 (mem_of_requireState stated)
  refine Safe.ofAdapted (fun growth grows => ?_) fun _ _ => h
  have subject : growth.vm = id := (vm_of_growthOf grows).trans (h.1.named stored)
  have same : first = ⟨some vm, first.volumes⟩ := View.ext stored rfl
  have unscaled : Unscaled id item first vm.resources past s :=
    ⟨vm, first.volumes, running, rfl, same ▸ ⟨h.1, steady_of_unsent h.2⟩⟩
  subst subject
  refine Safe.ofProgram (Safe.clinch (fun call _ _ h => alone_answerCall resources call h)
    (Loop.clinches_attempts growth _ _ ∅) unscaled) ?_
  intro result past s ends
  cases result with
  | ok outcome =>
    obtain ⟨grown, volumes, runs, has, h⟩ := ends.1 rfl
    exact ⟨⟨some grown, volumes⟩, ⟨grown, rfl, runs, has⟩, h⟩
  | error failure =>
    obtain ⟨last, volumes, runs, has, h⟩ := ends.2 (fun no => by cases no)
    change Safe _ _ (throw (ofPlacement failure) : Body Vm).run past s
    unfold ofPlacement
    split
    · exact ⟨⟨some last, volumes⟩, ⟨last, rfl, runs⟩, h⟩
    · exact ⟨⟨some last, volumes⟩, ⟨vm, last, stored, rfl, runs, has⟩, Stands.forget h⟩

theorem alone_scale (h : Waits id first past s) :
    Safe (alone id job) (fun result => Told (.scale id resources) first result.isOk)
      (scale ctx id resources).run past s :=
  alone_underWork (.scale id resources) h alone_scaleBody

end Concurrent
end ControlPlane
