import ControlPlane.Proofs.Operation.MoveDiscipline
import ControlPlane.Proofs.Operation.WriteAhead

/-!
# Moves are recorded in a plan before they are made

A migration goes by the plan that its item has, from the host on which the machine is recorded. A
machine that has to move before it can grow gets a plan of its own for each move, and it grows on
the host to which the last one has brought it.
-/

namespace ControlPlane

namespace Placement
variable {α β γ : Type} {current : Option HostId} {moved : Bool} {growth : Growth}
  {host : HostId} {excluded : Exclusions}

def Call.moves : Call → Bool
  | .attempt (.migrate _) => true
  | _ => false

/-- Nothing is attempted in place but where the machine was at first, and nothing after it has
moved. -/
def Roams (current : Option HostId) (Q : Bool → β → Prop) :
    Bool → Program (calls α) β → Prop
  | moved, .done b => Q moved b
  | moved, .ask call rest =>
    (∀ host, call = .attempt (.inPlace host) → moved = false ∧ current = some host) ∧
      ∀ reply, Roams current Q (moved || call.moves) (rest reply)

theorem Roams.bind {Q : Bool → β → Prop} {Q' : Bool → γ → Prop}
    {p : Program (calls α) β} {f : β → Program (calls α) γ} (h : Roams current Q moved p)
    (next : ∀ moved b, Q moved b → Roams current Q' moved (f b)) :
    Roams current Q' moved (p >>= f) := by
  induction p generalizing moved with
  | done b => exact next moved b h
  | ask call rest ih => exact ⟨h.1, fun reply => ih reply (h.2 reply)⟩

theorem roams_ask {Q : Bool → β → Prop} {call : Call}
    {rest : (calls α).Reply call → Program (calls α) β}
    (calm : ∀ target, call ≠ .attempt target)
    (next : ∀ reply, Roams current Q moved (rest reply)) :
    Roams current Q moved (.ask call rest) := by
  refine ⟨fun host e => absurd e (calm _), fun reply => ?_⟩
  have still : call.moves = false := by
    cases call with
    | attempt target => exact absurd rfl (calm target)
    | _ => rfl
  rw [still, Bool.or_false]
  exact next reply

def Barred (current : Option HostId) (excluded : Exclusions) : Prop :=
  ∀ host, current = some host → excluded.rulesOut host = true

theorem rulesOut_insert {other : HostId} :
    Exclusions.rulesOut (excluded.insert host) other = true ↔ host = other ∨
      excluded.rulesOut other = true := by
  have named : Keyed.key host = other.key ↔ host = other := Id.key_inj
  simp only [Exclusions.rulesOut, Table.contains_eq, Table.get?_insert, named]
  split <;> simp_all

theorem Barred.insert (h : Barred current excluded) (host : HostId) :
    Barred current (excluded.insert host) :=
  fun other e => rulesOut_insert.2 (.inr (h other e))

theorem barred_of_insert {host : HostId} (here : current = some host) :
    Barred current (excluded.insert host) :=
  fun _ e => rulesOut_insert.2 (.inl (Option.some.inj (here.symm.trans e)))

/-- It is ruled out if it does not come into question. -/
theorem barred_of_filter (out : current.filter (!excluded.rulesOut ·) = none) :
    Barred current excluded := by
  intro host here
  simpa using Option.filter_eq_none_iff.1 out host here

namespace Loop

theorem roams_tryElsewhere :
    Roams current (fun _ _ => True) moved (tryElsewhere (α := α) excluded).run := by
  refine roams_ask nofun fun chosen => ?_
  rcases chosen with failure | _ | host
  · trivial
  · trivial
  · refine roams_ask nofun fun room => ?_
    rcases room with failure | _ | _
    · trivial
    · trivial
    · exact ⟨nofun, fun reply => by cases reply <;> trivial⟩

/-- After a move, the hosts that are ruled out include the one on which the machine was. -/
def Informs (current : Option HostId) (moved : Bool)
    (result : Except Failure (Attempt α × Exclusions)) :
    Prop := ∀ pair, result = .ok pair → moved = true → Barred current pair.2

theorem roams_attempt (barred : moved = true → Barred growth.current excluded) :
    Roams growth.current (Informs growth.current) moved
      (attempt (α := α) growth excluded).run := by
  have elsewhere : ∀ {moved excluded}, Barred growth.current excluded →
      Roams growth.current (Informs growth.current) moved
        (do return (← tryElsewhere excluded, excluded) : Loop α
          (Attempt α × Exclusions)).run := by
    intro moved excluded barred
    refine Roams.bind roams_tryElsewhere fun moved result _ => ?_
    rcases result with failure | made
    · exact nofun
    · rintro _ ⟨⟩ -
      exact barred
  unfold attempt
  split
  next host here =>
    obtain ⟨current, free⟩ := Option.filter_eq_some_iff.1 here
    refine roams_ask nofun fun room => ?_
    rcases room with failure | _ | _
    · exact nofun
    · exact elsewhere (barred_of_insert current)
    · have still : moved = false := by
        cases moved with
        | false => rfl
        | true =>
          rw [barred rfl host current] at free
          cases free
      subst still
      refine ⟨fun other e => ?_, fun reply => ?_⟩
      · cases e
        exact ⟨rfl, current⟩
      · cases reply <;> exact nofun
  next out => exact elsewhere (barred_of_filter out)

theorem roams_attempts (limit remaining : Nat)
    (barred : moved = true → Barred growth.current excluded) :
    Roams growth.current (fun _ _ => True) moved
      (attempts (α := α) growth limit remaining excluded).run := by
  induction remaining generalizing excluded moved with
  | zero => trivial
  | succ remaining ih =>
    refine roams_ask nofun fun charged => ?_
    rcases charged with failure | _
    · trivial
    refine Roams.bind (p := (reverting (attempt growth excluded)).run) (Q := Informs growth.current)
      (Roams.bind (roams_attempt barred) fun moved result informs => ?_)
      fun moved result informs => ?_
    · rcases result with failure | pair
      · exact roams_ask nofun fun reply => by cases reply <;> exact nofun
      · exact informs
    · rcases result with failure | ⟨made, excluded⟩
      · trivial
      have barred : moved = true → Barred growth.current excluded := informs _ rfl
      cases made with
      | succeeded target value => trivial
      | noRoom host =>
        refine roams_ask nofun fun reply => ?_
        rcases reply with failure | _
        · trivial
        · exact ih fun moved => (barred moved).insert host
      | failed host failure =>
        refine roams_ask nofun fun reply => ?_
        rcases reply with failure | _
        · trivial
        · change Roams _ _ _ (ExceptT.run (if failure.NeedsReconciliation then throw failure
            else attempts growth limit remaining (excluded.insert host)))
          split
          · trivial
          · exact ih fun moved => (barred moved).insert host
      | noCandidate => exact roams_ask nofun fun reply => by cases reply <;> trivial

end Loop

theorem roams_retry (growth : Growth) (limit : Nat) :
    Roams growth.current (fun _ _ => True) false (retry α growth limit) :=
  Loop.roams_attempts limit limit nofun

end Placement

namespace Concurrent
open Work Control Operation Procedure Migration Agent

variable {job : Nat} {c x : Item} {plan : Option Plan} {P : State → Option HostId → Prop}
  {s : Shared} {past : List Exchange} {α β : Type} {ctx : Context} {v : VmId} {vm : Vm} {p : Plan}

abbrev Sailing (job : Nat) (c : Item) (p : Plan) : Assertion :=
  Under job c (some p) (Only .running (some p.source))

theorem leaving_of_planned {s : Store} (here : x.vm = c.vm) (planned : x.plan = some p)
    (recorded : Recorded c.vm (Only .running (some p.source)) s) :
    Leaving x p.source p.destination s :=
  ⟨⟨p, planned, rfl, rfl⟩, here ▸ recorded⟩

theorem befits_sendAway : (sendAway ctx vm p).Within
    (Befits job c (some p) (Only .running (some p.source))) fun _ => True :=
  sendAway_asks (befits_command fun here planned recorded =>
    leaving_of_planned here planned recorded)
    fun _ => befits_probe

theorem idles_record {moves : List VolumeMove} :
    (record vm p moves).run.Within Idles fun _ => True :=
  record_asks (fun _ => not_commands_of_silent) id fun _ => id

theorem foreseen_record (subject : vm.id = c.vm) (h : Under job c plan P past s) :
    Safe (foreseeing c.vm c.owner job) (Ends
      (fun _ => Under job c plan (Only .running (some p.destination)))
      fun past s => ∃ P, Under job c plan P past s) (record vm p []).run past s := by
  refine Safe.andThen (foreseen_run subject h) ?_ fun _ _ _ h => ⟨P, h⟩
  intro _ past s ends
  obtain ⟨-, -, u, -, -, h⟩ := ends
  refine (foreseen_run (t := { vm := vm.id, expected := .migrating, event := .operationSucceeded
                               host := some p.destination }) subject h).mono
                                 fun result past s ends => ?_
  cases result with
  | error failure => exact ⟨_, ends⟩
  | ok written =>
    obtain ⟨-, found, u, -, checked, h⟩ := ends
    obtain ⟨runs, hosted⟩ := Transition.hosts_of_check checked rfl
    have here : u.host = some p.destination := Transition.host_taken hosted (by decide)
    rwa [runs, here] at h

theorem foreseen_compute (subject : vm.id = c.vm) (h : Sailing job c p past s) :
    Safe (foreseeing c.vm c.owner job) (Ends
      (fun _ => Under job c (some p) (Only .running (some p.destination)))
      fun past s => ∃ P, Under job c (some p) P past s) (compute ctx vm p).run past s := by
  refine foreseen_ask befits_sendAway h fun landing past s h => ?_
  cases landing with
  | moved =>
    refine Safe.adapt ((foreseen_record subject h).mono fun result _ _ ends => ?_)
    cases result <;> exact ends
  | notMoved failure => exact ⟨_, h⟩
  | unknown failure => exact ⟨_, h⟩

section
variable {targets : List VolumeTarget}

theorem idles_recorded {moves : List VolumeMove} {wrap : Failure → Ending} :
    ((record vm p moves).adapt wrap : Body Vm).run.Within Idles fun _ => True :=
  idles_record.then fun _ _ => trivial

theorem idles_locateWithStorage {lost : Failure} :
    (locateWithStorage ctx vm p targets lost).run.Within Idles fun _ => True := by
  refine .ofProgram (powerStates_asks fun commands => commands.elim (· rfl) (· rfl))
    fun found _ => ?_
  split
  · exact idles_recorded
  · trivial
  · trivial

theorem foreseen_withinCluster (h : Sailing job c p past s) :
    Safe (foreseeing c.vm c.owner job) Anyhow (withinCluster ctx vm p targets).run past s := by
  refine foreseen_ask (dispatch_asks (befits_command fun here planned recorded =>
    leaving_of_planned here planned recorded)) h fun reported past s h =>
    foreseen_within (P := fun _ => True) ?_
  cases reported with
  | ok reported => exact idles_recorded
  | error failure =>
    simp only
    split
    · exact idles_locateWithStorage
    · trivial

theorem foreseen_acrossClusters (h : Sailing job c p past s) :
    Safe (foreseeing c.vm c.owner job) Anyhow (acrossClusters ctx vm p targets).run past s := by
  refine foreseen_look (dispatch_asks (befits_command fun here planned recorded =>
    ⟨_, leaving_of_planned here planned recorded⟩)) h (fun rendezvous past s h => ?_)
    fun _ _ _ _ => trivial
  have asks : (send ctx vm p rendezvous).run.Within
    (Befits job c (some p) (Only .running (some p.source)))
      fun result => ∀ failure, result ≠ .error (.rejected failure) := by
    refine send_asks (befits_command fun here planned recorded => ?_) befits_probe
      (befits_command fun here planned recorded => ⟨p.source, ?_⟩)
    · exact leaving_of_planned here planned recorded
    · exact leaving_of_planned here planned recorded
  refine Safe.andThen (Safe.within asks (fun _ befits => befits.quiet) lasting_under h)
    (fun _ past s h => ?_) fun _ _ _ _ => trivial
  obtain ⟨-, h⟩ := h
  refine foreseen_look (befits_within (.call ⟨trivial, fun no => no⟩)) h (fun _ past s h => ?_)
    fun _ _ _ _ => trivial
  refine foreseen_ask (dispatch_asks (befits_command fun here planned recorded =>
    ⟨_, leaving_of_planned here planned recorded⟩)) h fun reported past s h =>
    foreseen_within (P := fun _ => True) ?_
  cases reported with
  | ok reported => exact idles_recorded
  | error failure =>
    exact .ofProgram (split_asks fun commands => commands.elim (· rfl) (· rfl)) fun _ _ => trivial

end

theorem foreseen_check {R : Assertion} (subject : p.vm = c.vm)
    (lasting : Lasting (foreseeing c.vm c.owner job) Request.Silent R)
    (working : ∀ {past s}, R past s → Working job c plan s) (h : R past s) :
    Safe (foreseeing c.vm c.owner job) (fun result past s => R past s ∧
      ∀ pair, result = .ok pair → pair.1.id = c.vm ∧
        Under job c plan (Only .running (some p.source)) past s) (check p).run past s := by
  refine (safe_check (T := fun vm past s => vm.id = c.vm ∧
    Under job c plan (Only vm.state vm.host) past s)
    lasting (fun vm => ?_) h fun {vm s} _ stored h => ?_).mono fun result past s h => ⟨h.1, ?_⟩
  · exact ⟨fun _ _ _ rely inv h => ⟨h.1, stable_under rely inv h.2⟩,
      fun silent _ _ => foretold_of_idle (not_commands_of_silent silent), fun _ h => h⟩
  · exact ⟨(Store.id_of_vm? stored).trans subject, working h, vm, subject ▸ stored, rfl, rfl⟩
  · intro pair e
    obtain ⟨⟨named, h⟩, movable⟩ := h.2 pair e
    rw [movable.running, movable.host] at h
    exact ⟨named, h⟩

theorem foreseen_migrateBody (subject : p.vm = c.vm) (h : Working job c (some p) s) :
    Safe (foreseeing c.vm c.owner job) Anyhow (migrateBody ctx p).run past s := by
  refine Safe.adapted (foreseen_check subject lasting_working (fun h => h) h) ?_
    fun _ _ _ _ => trivial
  rintro ⟨vm, targets⟩ past s ⟨-, checked⟩
  obtain ⟨named, h⟩ := checked _ rfl
  simp only
  split
  · exact (foreseen_compute named h).mono fun _ _ _ _ => trivial
  · split
    · exact foreseen_acrossClusters h
    · exact foreseen_withinCluster h

theorem lasting_silent_under :
    Lasting (foreseeing c.vm c.owner job) Request.Silent (Under job c plan P) :=
  ⟨stable_under, fun silent _ _ => foretold_of_idle (not_commands_of_silent silent),
    fun _ h => h⟩

theorem Working.planned {now : Timestamp} (h : Working job c plan s) :
    Working job c (some p) { s with store := s.store.planItem c p now } := by
  obtain ⟨y, stored, rest⟩ := h.known
  obtain ⟨x, covers, same, here, -⟩ := h.covered
  have kept : ∀ {id y}, s.store.item? id = some y →
      (s.store.planItem c p now).item? id = some (Transaction.onItem (.planItem c p now) y) :=
    fun stored => Transaction.item?_apply (t := .planItem c p now) stored (by rintro _ ⟨⟩)
  have written : Transaction.onItem (.planItem c p now) x =
    { x with plan := some p, updated := now } :=
    if_pos same.symm
  have stored' := kept covers.stored
  rw [written] at stored'
  refine ⟨⟨h.holds, _, kept stored, ?_⟩, h.drew, h.sole,
    { x with plan := some p, updated := now }, ⟨stored', covers.isOpen, ?_⟩, same, here, rfl⟩
  · rw [Transaction.onItem, if_pos (Store.id_of_item? stored).symm]
    exact rest
  · exact Transaction.openItem?_apply_kept (t := .planItem c p now) covers.slot (by rintro ⟨⟩)

theorem foreseen_recordPlan (h : Under job c plan P past s) :
    Safe (foreseeing c.vm c.owner job) (Ends (fun _ => Under job c (some p) P) fun _ _ => False)
      (Work.recordPlan c p).run past s := by
  refine Safe.andThen (Q := Ends (fun _ => Under job c plan P) fun _ _ => False)
    (Safe.ask stable_under (fun _ => rfl) h fun s h _ => ⟨foretold_of_idle fun no => no, ?_⟩) ?_
    fun _ _ _ h => h
  · rintro _ _ rfl
    exact ⟨trivial, h⟩
  intro now past s h
  refine Safe.transact stable_under h fun s h _ =>
    ⟨foretold_of_idle fun no => no, fun _ => ⟨trivial, ?_⟩⟩
  exact ⟨h.1.planned, h.2⟩

theorem foreseen_write {t : Transaction} (names : t.names? = none) (closes : t.closes? = none)
    (noSwap : ∀ u, t ≠ .swap u) (h : Under job c plan P past s) :
    Safe (foreseeing c.vm c.owner job) (fun _ => Under job c plan P)
      (Program.call (I := surroundings) (.transact t)) past s := by
  refine Safe.carry (f := .done) stable_under h (fun _ _ _ => foretold_of_idle fun no => no)
    fun s h _ _ => ⟨trivial, h.1.framed names closes, ?_⟩
  obtain ⟨-, vm, stored, p⟩ := h
  refine ⟨t.onVm vm, by rw [Transaction.vm?_apply, stored]; rfl, ?_⟩
  rcases onVm_cases t vm with ⟨state, host, -⟩ | ⟨u, e, -⟩
  · rwa [state, host]
  · exact absurd e (noSwap u)

theorem foreseen_reload {id : VmId} (subject : c.vm = id) (h : Under job c plan P past s) :
    Safe (foreseeing c.vm c.owner job) (fun result past s => Under job c plan P past s ∧
      ∀ vm, result = .ok vm → vm.id = c.vm) (loadVm id).run past s :=
  safe_loadVm (T := fun vm _ _ => vm.id = c.vm) ⟨trivial, fun no => no⟩ lasting_silent_under h
    fun _ stored _ => (Store.id_of_vm? stored).trans subject.symm

def Somehow (job : Nat) (c : Item) : Assertion :=
  fun past s => ∃ plan P, Under job c plan P past s

/-- A machine that has moved before it grows runs at its destination. -/
theorem foreseen_moveForScale {destination : HostId} (subject : vm.id = c.vm)
    (h : Under job c plan P past s) :
    Safe (foreseeing c.vm c.owner job) (Ends
      (fun _ past s => ∃ p, Under job c (some p) (Only .running (some destination)) past s)
      (Somehow job c)) (moveForScale ctx c vm destination).run past s := by
  refine Safe.ofExcept (fun source _ => ?_) fun _ _ => ⟨plan, P, h⟩
  refine Safe.andThen (safe_plan lasting_silent_under h) ?_ fun _ _ _ h => ⟨plan, P, h.1⟩
  intro p past s h
  obtain ⟨h, planned⟩ := h
  obtain ⟨about, -, rfl⟩ := planned p rfl
  refine Safe.andThen (foreseen_check (about.trans subject) lasting_silent_under
    (fun h => h.1) h) ?_
    fun _ _ _ h => ⟨plan, P, h.1⟩
  rintro ⟨moving, targets⟩ past s ⟨-, checked⟩
  obtain ⟨named, h⟩ := checked _ rfl
  refine Safe.andThen (foreseen_recordPlan h) ?_ fun _ _ _ => False.elim
  intro _ past s h
  refine Safe.ofProgram (foreseen_compute named h) fun result past s ends => ?_
  rcases result with (failure | failure | failure) | moved
  · exact ⟨_, ends⟩
  · exact ⟨_, ends⟩
  · exact ⟨_, ends⟩
  · exact ⟨p, ends⟩

/-- What is recorded while a machine is to grow: until it moves, it runs where it was at first. -/
def Grows (job : Nat) (c : Item) (current : Option HostId) (moved : Bool) : Assertion :=
  fun past s =>
  ∃ plan P, (moved = false → ∀ state host, P state host →
    state = .running ∧ host = current) ∧
    Under job c plan P past s

theorem grows_of_moved {current : Option HostId} (h : Somehow job c past s) :
    Grows job c current true past s := by
  obtain ⟨plan, P, h⟩ := h
  exact ⟨plan, P, nofun, h⟩

/-- The command to grow goes to the host on which the machine is recorded to run. -/
theorem foreseen_grow {host : HostId} {resources : Resources} (subject : c.vm = v)
    (runs : ∀ state host', P state host' → state = .running ∧ host' = some host)
    (h : Under job c plan P past s) :
    Safe (foreseeing c.vm c.owner job) (fun _ => Under job c plan P) (do
      Agent.dispatch host .scale ⟨vm.token, resources⟩ ctx.waits.scaleWait
      demand (.transact (.setResources v resources)) rfl
      loadVm v : Procedure Vm).run past s := by
  have asks : (Agent.dispatch host .scale ⟨vm.token, resources⟩ ctx.waits.scaleWait).run.Within
      (Befits job c plan P) fun _ => True := by
    refine dispatch_asks (befits_command fun here _ recorded => ?_)
    rw [Announced, here]
    exact recorded.mono runs
  refine Safe.andThen (Safe.within asks (fun _ befits => befits.quiet) lasting_under h)
    ?_ fun _ _ _ h => h.2
  intro _ past s h
  refine Safe.andThen (foreseen_write rfl rfl (by rintro _ ⟨⟩) h.2) ?_ fun _ _ _ h => h
  exact fun _ _ _ h => (foreseen_reload subject h).mono fun _ _ _ h => h.1

theorem foreseen_scaleOn {id : VmId} {resources : Resources} {target : Placement.Target}
    {current : Option HostId} {moved : Bool} (subject : c.vm = id)
    (home : ∀ host, target = .inPlace host → moved = false ∧ current = some host)
    (h : Grows job c current moved past s) :
    Safe (foreseeing c.vm c.owner job)
      (fun _ => Grows job c current (moved || (Placement.Call.attempt target).moves))
      (scaleOn ctx c id resources target).run past s := by
  obtain ⟨plan, P, runs, h⟩ := h
  cases target with
  | inPlace host =>
    obtain ⟨rfl, rfl⟩ := home host rfl
    have grows : ∀ {past s}, Under job c plan P past s → Grows job c (some host) false past s :=
      fun h => ⟨plan, P, runs, h⟩
    refine Safe.andThen (foreseen_reload subject h) ?_ fun _ _ _ h => grows h.1
    intro vm past s h
    exact (foreseen_grow subject (runs rfl) h.1).mono fun _ _ _ h => grows h
  | migrate destination =>
    rw [Placement.Call.moves, Bool.or_true]
    refine Safe.andThen (foreseen_reload subject h) ?_ fun _ _ _ h =>
      grows_of_moved ⟨plan, P, h.1⟩
    intro vm past s h
    refine Safe.andThen (foreseen_moveForScale (h.2 vm rfl) h.1) ?_ fun _ _ _ h => grows_of_moved h
    intro vm past s h
    obtain ⟨p, h⟩ := h
    refine (foreseen_grow subject (fun _ _ only => only) h).mono fun _ _ _ h => ?_
    exact grows_of_moved ⟨_, _, h⟩

theorem Grows.within {Q : α → Prop} {current : Option HostId} {moved : Bool}
    {p : Program surroundings α} (within : p.Within Request.Silent Q)
    (h : Grows job c current moved past s) :
    Safe (foreseeing c.vm c.owner job) (fun _ => Grows job c current moved) p past s := by
  obtain ⟨plan, P, runs, h⟩ := h
  exact (Safe.within within (fun _ silent => silent.1) lasting_silent_under h).mono
    fun _ _ _ h => ⟨plan, P, runs, h.2⟩

theorem Grows.write {t : Transaction} {current : Option HostId} {moved : Bool}
    (names : t.names? = none) (closes : t.closes? = none) (noSwap : ∀ u, t ≠ .swap u)
    (h : Grows job c current moved past s) :
    Safe (foreseeing c.vm c.owner job) (fun _ => Grows job c current moved)
      (Procedure.transact t).run past s := by
  obtain ⟨plan, P, runs, h⟩ := h
  exact Safe.then (foreseen_write names closes noSwap h) fun _ _ _ h => ⟨plan, P, runs, h⟩

theorem foreseen_answerCall {resources : Resources} {growth : Placement.Growth} {moved : Bool}
    (subject : c.vm = growth.vm) (call : Placement.Call)
    (home : ∀ host, call = .attempt (.inPlace host) → moved = false ∧
      growth.current = some host)
    (h : Grows job c growth.current moved past s) :
    Safe (foreseeing c.vm c.owner job) (fun _ => Grows job c growth.current (moved || call.moves))
      (answerCall ctx c resources growth call) past s := by
  cases call with
  | attempt target => exact foreseen_scaleOn subject (fun host e => home host (e ▸ rfl)) h
  | increment | decrement =>
    rw [Placement.Call.moves, Bool.or_false]
    · exact h.write rfl rfl (by rintro _ ⟨⟩)
    · exact nofun
  | hasRoom host =>
    rw [Placement.Call.moves, Bool.or_false]
    · exact h.within (.call ⟨trivial, fun no => no⟩)
    · exact nofun
  | selectHost excluded =>
    rw [Placement.Call.moves, Bool.or_false]
    · exact h.within (.call ⟨trivial, fun no => no⟩)
    · exact nofun

/-- A loop that is carried out call by call, where something depends on whether the machine has
moved. -/
theorem Safe.roam {C : Contract} {R : Bool → Assertion} {Q : Bool → β → Prop}
    {current : Option HostId}
    {answer : (call : Placement.Call) → Program surroundings ((Placement.calls α).Reply call)}
    (each : ∀ moved call past s,
      (∀ host, call = .attempt (.inPlace host) → moved = false ∧ current = some host) →
        R moved past s → Safe C (fun _ => R (moved || call.moves)) (answer call) past s)
    {p : Program (Placement.calls α) β} {moved : Bool} (roams : Placement.Roams current Q moved p)
    (h : R moved past s) :
    Safe C (fun _ past s => ∃ moved, R moved past s) (p.run answer) past s := by
  induction p generalizing moved past s with
  | done b => exact ⟨moved, h⟩
  | ask call rest ih =>
    exact Safe.then (each moved call past s roams.1 h) fun reply _ _ h => ih reply (roams.2 reply) h

theorem current_of_growthOf {resources : Resources} {growth : Placement.Growth}
    (h : growthOf vm resources = .ok growth) : growth.current = vm.host := by
  simp only [growthOf] at h
  split at h
  · cases h
  · split at h <;> cases h
    rfl

theorem foreseen_scaleBody {id : VmId} {resources : Resources} (subject : c.vm = id)
    (h : Working job c plan s) :
    Safe (foreseeing c.vm c.owner job) Anyhow (scaleBody ctx id resources c).run past s := by
  refine foreseen_load subject h (fun vm past s named h => ?_) fun _ _ _ _ => trivial
  refine Safe.ofAdapted (fun _ stated => ?_) fun _ _ => trivial
  refine Safe.ofAdapted (fun growth grows => ?_) fun _ _ => trivial
  have running : vm.state = .running := List.mem_singleton.1 (mem_of_requireState stated)
  rw [running, ← current_of_growthOf grows] at h
  have about : c.vm = growth.vm := named.symm.trans (vm_of_growthOf grows).symm
  have grows : Grows job c growth.current false past s := ⟨plan, _, fun _ _ _ only => only, h⟩
  have roams := Placement.roams_retry (α := Vm) growth ctx.maxRetries.toNat
  refine Safe.ofProgram (Safe.roam (fun _ call _ _ home h => foreseen_answerCall about call home h)
    roams grows) fun result _ _ _ => ?_
  cases result <;> trivial

end Concurrent
end ControlPlane
