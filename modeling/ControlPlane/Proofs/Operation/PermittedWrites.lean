import ControlPlane.Proofs.Concurrent.RecordedAnswers
import ControlPlane.Proofs.Operation.Calls
import ControlPlane.Proofs.Operation.MoveDiscipline

/-!
# What an operation may write

An operation writes to its own machine, to items of its own, and to volumes of the machine that it
has been asked to move. What hosts answer has no say in this: they only tell by which path a volume
is to be found.
-/

namespace ControlPlane
open Work Control Operation Procedure Migration Agent

def Operation.Call.pool? : Call → VolumeId → Option PoolId
  | .migrate request, volume => (request.volumes.get? volume.key).map (·.pool)
  | _, _ => none

namespace Concurrent

def Drawn (id : Uuid) (past : List Exchange) : Prop :=
  ∃ before, (⟨.freshId, id, before⟩ : Exchange) ∈ past

/-- The store has listed the volume among those of the machine. -/
def Attached (v : VmId) (id : VolumeId) (past : List Exchange) : Prop :=
  ∃ before : Store, (⟨.transact (.volumesOf v), before.volumesOf v, before⟩ : Exchange) ∈
    past ∧ ∃ volume ∈ before.volumesOf v, volume.id = id

/-- This is what a host has answered to a command. -/
def Replied (k : Kind) (reply : k.Reply) (past : List Exchange) : Prop :=
  ∃ host body wait answer before,
    (⟨.send (.ofBody host k body wait), answer, before⟩ : Exchange) ∈ past ∧
    k.interpret host answer = .ok reply

/-- A host that has taken volumes over has reported the path for this one. -/
def Reported (id : VolumeId) (path : String) (past : List Exchange) : Prop :=
  ∃ reported : List VolumePath, ⟨id, path⟩ ∈ reported ∧
    (Replied .migrateWithStorage reported past ∨ Replied .complete reported past)

/-- The call asks for the move of this volume to this pool, and a host has reported the path if
there is one. -/
structure Directed (call : Call) (past : List Exchange) (move : VolumeMove) : Prop where
  pool : call.pool? move.volume = some move.pool
  attached : Attached call.vm move.volume past
  path : ∀ path, move.path = some path → Reported move.volume path past

/-- What a call may ask for. -/
def Remit (call : Call) (past : List Exchange) : Control.Request → Prop
  | .transact (.swap u) => u.vm = call.vm
  | .transact (.setResources v _) | .transact (.setCredentialsPending v _) => v = call.vm
  | .transact (.openItem item) | .transact (.closeItem item ..) | .transact (.planItem item ..) =>
    item.vm = call.vm ∧ Drawn item.id past
  | .transact (.recoverItem ..) => False
  | .transact (.moveVolumes moves) => ∀ move ∈ moves, Directed call past move
  | _ => True

abbrev remitted (call : Call) (job : Nat) : Contract := minding (fun _ => True) (Remit call) job

abbrev Remembers {α : Type} (R : List Exchange → Prop) (_ : α) : Assertion :=
  fun past _ => R past

/-- The plan moves no volumes but those that the call asks for, each to its pool. -/
def Heads (call : Call) (plan : Plan) : Prop :=
  ∀ id relocation, plan.volumes.get? id.key = some relocation →
    call.pool? id = some relocation.pool

def Aimed (call : Call) (volumes : List Volume) (targets : List VolumeTarget) : Prop :=
  ∀ target ∈ targets, (∃ volume ∈ volumes, volume.id = target.volume) ∧
    call.pool? target.volume = some target.pool

def Sighted (call : Call) (targets : List VolumeTarget) (past : List Exchange) : Prop :=
  ∀ target ∈ targets, Attached call.vm target.volume past ∧
    call.pool? target.volume = some target.pool

abbrev Aware (call : Call) (targets : List VolumeTarget) (R : List Exchange → Prop)
    (past : List Exchange) :
    Prop := R past ∧ Sighted call targets past

variable {call : Call} {job : Nat} {s : Shared} {past : List Exchange} {e : Exchange}
  {r : Control.Request} {α : Type} {R : List Exchange → Prop} {ctx : Context} {vm starting : Vm}
  {v : VmId} {host : HostId} {plan : Plan} {item : Item} {targets : List VolumeTarget}
  {move : VolumeMove} {resources : Resources}

theorem Drawn.append {id : Uuid} (h : Drawn id past) : Drawn id (past ++ [e]) := by
  obtain ⟨before, mem⟩ := h
  exact ⟨before, List.mem_append_left _ mem⟩

theorem Attached.append {id : VolumeId} (h : Attached v id past) : Attached v id (past ++ [e]) := by
  obtain ⟨before, mem, listed⟩ := h
  exact ⟨before, List.mem_append_left _ mem, listed⟩

theorem Replied.append {k : Kind} {reply : k.Reply} (h : Replied k reply past) :
    Replied k reply (past ++ [e]) := by
  obtain ⟨host, body, wait, answer, before, mem, told⟩ := h
  exact ⟨host, body, wait, answer, before, List.mem_append_left _ mem, told⟩

theorem Reported.append {id : VolumeId} {path : String} (h : Reported id path past) :
    Reported id path (past ++ [e]) := by
  obtain ⟨reported, mem, told⟩ := h
  exact ⟨reported, mem, told.imp Replied.append Replied.append⟩

theorem Directed.append (h : Directed call past move) : Directed call (past ++ [e]) move :=
  ⟨h.pool, h.attached.append, fun path named => (h.path path named).append⟩

theorem Sighted.append (h : Sighted call targets past) : Sighted call targets (past ++ [e]) :=
  fun target mem => ⟨(h target mem).1.append, (h target mem).2⟩

theorem remit_of_quiet (quiet : r.Quiet) : Remit call past r := by
  cases r with
  | transact t => cases t <;> trivial
  | _ => trivial

section
variable (grows : ∀ {past e}, R past → R (past ++ [e]))
include grows

theorem lasting_remit : Lasting (remitted call job) Request.Quiet fun past _ => R past where
  stable := stable_minding
  fit quiet _ _ := remit_of_quiet quiet
  keeps _ h := grows h

theorem remit_within {P : α → Prop} {p : Program surroundings α}
    (within : p.Within (fun r => ∀ past, R past → Remit call past r) P) (h : R past) :
    Safe (remitted call job) (fun a past _ => P a ∧ R past) p past s :=
  Safe.minds within (fun fits h => fits _ h) (fun _ => grows) h

theorem remit_query {P : α → Prop} {p : Program surroundings α}
    (within : p.Within Request.Quiet P) (h : R past) :
    Safe (remitted call job) (fun a past _ => P a ∧ R past) p past s :=
  remit_within grows (within.mono (fun _ quiet _ _ => remit_of_quiet quiet) fun _ p => p) h

theorem remit_loadVm (h : R past) :
    Safe (remitted call job) (fun result past _ => R past ∧ ∀ vm, result = .ok vm → vm.id = v)
      (loadVm v).run past s :=
  safe_loadVm (T := fun vm _ _ => vm.id = v) (K := Request.Quiet) trivial (lasting_remit grows) h
    fun _ stored _ => Store.id_of_vm? stored

theorem remit_run {t : Transition} (subject : t.vm = call.vm) (h : R past) :
    Safe (remitted call job) (Ends (fun w past _ => w.id = call.vm ∧ R past) fun past _ => R past)
      t.run.run past s := by
  refine Safe.minds_writes (K := fun r => ∀ past, Remit call past r)
    (fun _ => trivial) (fun _ => trivial)
    (fun u about _ => about.trans subject) (fun fits _ => fits _) (fun _ => grows) ?_ h
  intro past s vm u _ h stored _
  have named : vm.id = t.vm := Store.id_of_vm? stored
  exact ⟨named.trans subject, grows h⟩

theorem remit_finishStart (subject : starting.id = call.vm) (h : R past) :
    Safe (remitted call job) (Remembers R) (finishStart starting).run past s := by
  refine Safe.andThen (remit_run grows subject h) ?_ fun _ _ _ h => h
  intro running past s h
  have marks : (do
      if starting.credentialsPending then
        demand (.transact (.setCredentialsPending starting.id false)) rfl
      loadVm running.id : Procedure Vm).run.Within (fun r => ∀ past, R past → Remit call past r)
        fun _ => True := by
    have loads : (loadVm running.id).run.Within (fun r => ∀ past, R past → Remit call past r)
        fun _ => True := loadVm_within _ fun _ _ => trivial
    cases starting.credentialsPending with
    | false => exact loads
    | true => exact .andThen (.demand fun _ _ => subject) (fun _ _ => loads) fun _ _ => trivial
  exact (remit_within grows marks h.2).mono fun _ _ _ h => h.2

theorem remit_startOn (subject : starting.id = call.vm) (h : R past) :
    Safe (remitted call job) (Remembers R) (startOn ctx vm starting host).run past s := by
  refine Safe.ofProgram (remit_query grows (sendResolved_within ..) h) ?_
  intro resolution past s h
  cases resolution with
  | unknown failure => exact h.2
  | failed failure => exact h.2
  | succeeded =>
    refine Safe.ofProgram
      (remit_query grows (.call (r := .finalizeStart starting host) trivial) h.2) ?_
    intro finalized past s h
    cases finalized with
    | ok _ =>
      exact Safe.adapted (remit_finishStart grows subject h.2) (fun _ _ _ h => h) fun _ _ _ h => h
    | error failure =>
      exact Safe.ofProgram (remit_query grows (forceStop_within ..) h.2) fun _ _ _ h => h.2

theorem remit_tryStart (subject : vm.id = call.vm) (remaining : Nat)
    (excluded : Placement.Exclusions) (last : Option Failure) (h : R past) :
    Safe (remitted call job) (Remembers R)
      (tryStart ctx vm remaining excluded last).run past s := by
  induction remaining generalizing excluded last past s with
  | zero => exact h
  | succ remaining ih =>
    refine Safe.adapted (remit_query grows (.demand trivial) h) ?_ fun _ _ _ h => h.2
    intro chosen past s h
    cases chosen with
    | none => exact h.2
    | some host =>
      refine Safe.adapted (remit_query grows (loadVm_within _ trivial) h.2) ?_ fun _ _ _ h => h.2
      intro current past s h
      simp only [refusing]
      refine Safe.adapted (remit_run grows subject h.2) ?_ fun _ _ _ h => h
      intro starting past s h
      refine Safe.andThen (remit_startOn grows h.1 h.2) ?_ fun _ _ _ h => h
      intro attempt past s h
      cases attempt with
      | running vm => exact h
      | refused failure =>
        exact Safe.adapted (remit_run grows subject h) (fun _ _ _ h => ih _ _ h.2) fun _ _ _ h => h

theorem remit_startBody (h : R past) :
    Safe (remitted call job) (Remembers R) (startBody ctx call.vm).run past s := by
  refine Safe.adapted (remit_loadVm grows h) ?_ fun _ _ _ h => h.1
  intro vm past s h
  obtain ⟨h, named⟩ := h
  refine Safe.ofAdapted (fun _ _ => ?_) fun _ _ => h
  refine Safe.adapted (remit_query grows (requireGuru_within vm.role).quiet h) ?_ fun _ _ _ h => h.2
  intro _ past s h
  exact remit_tryStart grows (named vm rfl) _ _ _ h.2

theorem remit_stopBody {force : Bool} (h : R past) :
    Safe (remitted call job) (Remembers R) (stopBody ctx call.vm force).run past s := by
  refine Safe.adapted (remit_query grows (loadVm_within _ trivial) h) ?_ fun _ _ _ h => h.2
  intro vm past s h
  refine Safe.ofAdapted (fun _ _ => ?_) fun _ _ => h.2
  refine Safe.ofAdapted (fun host _ => ?_) fun _ _ => h.2
  refine Safe.adapted (remit_query grows (requireGuru_within vm.role).quiet h.2)
    ?_ fun _ _ _ h => h.2
  intro _ past s h
  refine Safe.adapted (remit_query grows (.demand trivial) h.2) ?_ fun _ _ _ h => h.2
  intro _ past s h
  refine Safe.adapted (remit_run grows rfl h.2) ?_ fun _ _ _ h => h
  intro _ past s h
  refine Safe.ofProgram (remit_query grows (sendResolved_within ..) h.2) ?_
  intro resolution past s h
  cases resolution with
  | unknown failure => exact h.2
  | failed failure =>
    exact Safe.adapted (remit_run grows rfl h.2) (fun _ _ _ h => h.2) fun _ _ _ h => h
  | succeeded =>
    refine Safe.adapted (remit_run grows rfl h.2) ?_ fun _ _ _ h => h
    intro stopped past s h
    exact Safe.ofProgram (remit_query grows (.call (r := .finalizeStop stopped) trivial) h.2)
      fun _ _ _ h => h.2

theorem remit_dispatch {k : Kind} {body : k.Body} {wait : Span} (h : R past) :
    Safe (remitted call job)
      (fun result past _ => R past ∧ ∀ reply, result = .ok reply → Replied k reply past)
      (dispatch host k body wait).run past s := by
  refine Safe.observe (P := fun past _ => R past) trivial stable_minding h (fun _ _ _ => trivial) ?_
  intro s answer h _ _
  refine ⟨grows h, fun reply told => ?_⟩
  exact ⟨host, body, wait, answer, s.store, List.mem_append_right _ (.head _), told⟩

theorem aware_append (h : Aware call targets R past) : Aware call targets R (past ++ [e]) :=
  ⟨grows h.1, h.2.append⟩

theorem aware_query {P : α → Prop} {p : Program surroundings α}
    (within : p.Within Request.Quiet P) (h : Aware call targets R past) :
    Safe (remitted call job) (fun a past _ => P a ∧ Aware call targets R past) p past s :=
  remit_query (aware_append grows) within h

theorem aware_dispatch {k : Kind} {body : k.Body} {wait : Span} (h : Aware call targets R past) :
    Safe (remitted call job) (fun result past _ => Aware call targets R past ∧
      ∀ reply, result = .ok reply → Replied k reply past)
        (dispatch host k body wait).run past s :=
  remit_dispatch (aware_append grows) h

theorem remit_loadPool {id : PoolId} (h : R past) :
    Safe (remitted call job)
      (Ends (fun pool past _ => pool.id = id ∧ R past) fun past _ => R past)
      (loadPool id).run past s := by
  refine Safe.andThen (safe_reads (t := .pool id) trivial (lasting_remit grows).silent h)
    ?_ fun _ _ _ h => h.1
  intro found past s h
  obtain ⟨h, before, told, -⟩ := h
  cases told
  simp only [Transaction.apply]
  cases stored : before.pool? id with
  | none => exact h
  | some pool => exact ⟨Id.key_injective (Table.key_of_get? stored), h⟩

theorem remit_plan {request : Migration.Request} (h : R past) :
    Safe (remitted call job)
      (Ends (fun plan past _ => plan.vm = request.vm ∧ plan.volumes = request.volumes ∧
        R past) fun past _ => R past) (Migration.plan request).run past s := by
  refine Safe.andThen (remit_query grows (loadHost_within _ trivial) h) ?_ fun _ _ _ h => h.2
  intro source past s h
  refine Safe.andThen (remit_query grows (loadHost_within _ trivial) h.2) ?_ fun _ _ _ h => h.2
  intro destination past s h
  exact ⟨rfl, rfl, h.2⟩

theorem remit_targetOf {destination : Host} {volume : Volume}
    (heads : Heads call plan) (h : R past) :
    Safe (remitted call job) (Ends (fun target? past _ => R past ∧ ∀ target ∈ target?,
      target.volume = volume.id ∧ call.pool? volume.id = some target.pool) fun past _ => R past)
      (targetOf plan destination volume).run past s := by
  have stays : ∀ target ∈ (none : Option VolumeTarget),
      target.volume = volume.id ∧ call.pool? volume.id = some target.pool :=
    fun target no => absurd no (Option.not_mem_none target)
  unfold targetOf
  cases named : plan.volumes.get? volume.id.key with
  | none =>
    refine Safe.andThen (remit_loadPool grows h) ?_ fun _ _ _ h => h
    intro pool past s h
    cases pool.isLocal with
    | true => exact h.2
    | false => exact ⟨h.2, stays⟩
  | some relocation =>
    refine Safe.andThen (remit_loadPool grows h) ?_ fun _ _ _ h => h
    intro pool past s h
    obtain ⟨found, h⟩ := h
    refine Safe.ofExcept (fun _ _ => ⟨h, ?_⟩) fun _ _ => h
    intro target same
    cases same
    refine ⟨rfl, ?_⟩
    rw [heads _ _ named, found]

theorem remit_targets {destination : Host} {volumes : List Volume}
    (heads : Heads call plan) (h : R past) :
    Safe (remitted call job) (Ends (fun targets past _ => R past ∧ Aimed call volumes targets)
      fun past _ => R past) (Migration.targets plan destination volumes).run past s := by
  induction volumes generalizing past s with
  | nil => exact ⟨h, fun _ no => absurd no List.not_mem_nil⟩
  | cons volume volumes ih =>
    refine Safe.andThen (remit_targetOf grows heads h) ?_ fun _ _ _ h => h
    intro target? past s h
    obtain ⟨h, first⟩ := h
    refine Safe.andThen (ih h) ?_ fun _ _ _ h => h
    intro rest past s h
    obtain ⟨h, others⟩ := h
    refine ⟨h, ?_⟩
    intro target mem
    rcases List.mem_append.1 mem with mem | mem
    · obtain ⟨same, pool⟩ := first target (Option.mem_toList.1 mem)
      exact ⟨⟨volume, .head _, same.symm⟩, same ▸ pool⟩
    · obtain ⟨⟨other, mem, same⟩, pool⟩ := others target mem
      exact ⟨⟨other, .tail _ mem, same⟩, pool⟩

theorem remit_check (subject : plan.vm = call.vm) (heads : Heads call plan) (h : R past) :
    Safe (remitted call job)
      (Ends (fun pair past _ => pair.1.id = call.vm ∧ Aware call pair.2 R past)
        fun past _ => R past) (check plan).run past s := by
  refine Safe.andThen (remit_loadVm grows h) ?_ fun _ _ _ h => h.1
  intro vm past s h
  obtain ⟨h, named⟩ := h
  have named : vm.id = call.vm := (named vm rfl).trans subject
  refine Safe.ofExcept (fun _ _ => ?_) fun _ _ => h
  refine Safe.ofExcept (fun _ _ => ?_) fun _ _ => h
  refine Safe.andThen (remit_query grows (.demand trivial) h) ?_ fun _ _ _ h => h.2
  intro pending past s h
  cases pending
  case true => exact h.2
  refine Safe.andThen (remit_query grows (loadHost_within _ trivial) h.2) ?_ fun _ _ _ h => h.2
  intro destination past s h
  refine Safe.andThen (safe_reads (t := .volumesOf vm.id) trivial
    (lasting_remit grows).silent h.2) ?_
    fun _ _ _ h => h.1
  intro volumes past s h
  obtain ⟨h, before, told, listed⟩ := h
  cases told
  have listed : (⟨.transact (.volumesOf call.vm), before.volumesOf call.vm, before⟩ :
    Exchange) ∈ past :=
    named ▸ listed
  simp only [Transaction.apply, named]
  refine Safe.andThen (remit_targets (R := fun past => R past ∧
    (⟨.transact (.volumesOf call.vm), before.volumesOf call.vm, before⟩ : Exchange) ∈ past)
    (fun h => ⟨grows h.1, List.mem_append_left _ h.2⟩) heads ⟨h, listed⟩)
    ?_ fun _ _ _ h => h.1
  intro targets past s h
  obtain ⟨⟨h, listed⟩, aimed⟩ := h
  have sighted : Sighted call targets past := fun target mem =>
    ⟨⟨before, listed, (aimed target mem).1⟩, (aimed target mem).2⟩
  split
  · exact h
  refine Safe.andThen (aware_query grows (.ask trivial) ⟨h, sighted⟩) ?_ fun _ _ _ h => h.2.1
  intro connected past s h
  refine Safe.andThen (aware_query grows (.ask trivial) h.2) ?_ fun _ _ _ h => h.2.1
  intro guests past s h
  exact Safe.ofExcept (fun _ _ => ⟨named, h.2⟩) fun _ _ => h.2.1

theorem remit_record {moves : List VolumeMove} (subject : vm.id = call.vm)
    (directed : ∀ move ∈ moves, Directed call past move) (h : R past) :
    Safe (remitted call job) (Remembers R) (record vm plan moves).run past s := by
  refine (remit_within (R := fun past => R past ∧ ∀ move ∈ moves, Directed call past move)
    (fun h => ⟨grows h.1, fun move mem => (h.2 move mem).append⟩)
    (record_writes (fun _ silent _ _ => remit_of_quiet silent.1) (fun _ h => h.2)
      fun _ about _ _ => about.trans subject) ⟨h, directed⟩).mono ?_
  exact fun _ _ _ h => h.2.1

theorem remit_compute (subject : vm.id = call.vm) (h : R past) :
    Safe (remitted call job) (Remembers R) (compute ctx vm plan).run past s := by
  refine (remit_within grows (compute_writes (fun _ silent _ _ => remit_of_quiet silent.1)
    (fun _ _ => trivial) (fun _ _ _ => trivial) (fun _ _ _ mem => absurd mem List.not_mem_nil)
    fun _ about _ _ => about.trans subject) h).mono ?_
  exact fun _ _ _ h => h.2

section
variable (subject : vm.id = call.vm) (sighted : Sighted call targets past)
include subject sighted

theorem remit_resolve {reported : List VolumePath}
    (told : Replied .migrateWithStorage reported past ∨ Replied .complete reported past)
    (h : R past) :
    Safe (remitted call job) (Remembers R)
      (resolving (record vm plan (movesWithPaths targets reported))).run past s := by
  refine Safe.adapt (remit_record grows subject ?_ h)
  intro move mem
  obtain ⟨target, own, rfl⟩ := List.mem_map.1 mem
  refine ⟨(sighted target own).2, (sighted target own).1, ?_⟩
  intro path named
  obtain ⟨entry, found, rfl⟩ := Option.map_eq_some_iff.1 named
  have same : entry.volume = target.volume := by simpa using List.find?_some found
  have listed : entry ∈ reported := List.mem_reverse.1 (List.mem_of_find?_eq_some found)
  have this_one : (⟨target.volume, entry.path⟩ : VolumePath) = entry :=
    VolumePath.ext same.symm rfl
  exact ⟨reported, this_one ▸ listed, told⟩

theorem remit_locateWithStorage {lost : Failure} (h : R past) :
    Safe (remitted call job) (Remembers R)
      (locateWithStorage ctx vm plan targets lost).run past s := by
  refine Safe.ofProgram (aware_query grows (powerStates_within ..) ⟨h, sighted⟩) ?_
  intro found past s h
  obtain ⟨-, h, sighted⟩ := h
  split
  · refine Safe.adapt (remit_record grows subject ?_ h)
    intro move mem
    obtain ⟨target, own, rfl⟩ := List.mem_map.1 mem
    exact ⟨(sighted target own).2, (sighted target own).1, fun _ no => by cases no⟩
  · exact h
  · exact h

theorem remit_withinCluster (h : R past) :
    Safe (remitted call job) (Remembers R) (withinCluster ctx vm plan targets).run past s := by
  refine Safe.ofProgram (aware_dispatch grows ⟨h, sighted⟩) ?_
  intro reported past s h
  obtain ⟨⟨h, sighted⟩, told⟩ := h
  cases reported with
  | ok reported => exact remit_resolve grows subject sighted (.inl (told reported rfl)) h
  | error failure =>
    simp only
    split
    · exact remit_locateWithStorage grows subject sighted h
    · exact h

theorem remit_acrossClusters (h : R past) :
    Safe (remitted call job) (Remembers R) (acrossClusters ctx vm plan targets).run past s := by
  refine Safe.adapted (aware_dispatch grows ⟨h, sighted⟩) ?_ fun _ _ _ h => h.1.1
  intro rendezvous past s h
  refine Safe.andThen (aware_query grows (send_within ..) h.1) ?_ fun _ _ _ h => h.2.1
  intro _ past s h
  refine Safe.adapted (aware_query grows (.demand trivial) h.2) ?_ fun _ _ _ h => h.2.1
  intro _ past s h
  refine Safe.ofProgram (aware_dispatch grows h.2) ?_
  intro reported past s h
  obtain ⟨⟨h, sighted⟩, told⟩ := h
  cases reported with
  | ok reported => exact remit_resolve grows subject sighted (.inr (told reported rfl)) h
  | error failure => exact Safe.ofProgram (remit_query grows (split_within ..) h) fun _ _ _ h => h.2

end

theorem remit_migrateBody (subject : plan.vm = call.vm) (heads : Heads call plan) (h : R past) :
    Safe (remitted call job) (Remembers R) (migrateBody ctx plan).run past s := by
  refine Safe.adapted (remit_check grows subject heads h) ?_ fun _ _ _ h => h
  intro checked past s h
  obtain ⟨vm, targets⟩ := checked
  obtain ⟨named, h, sighted⟩ := h
  simp only
  split
  · exact remit_compute grows named h
  · split
    · exact remit_acrossClusters grows named sighted h
    · exact remit_withinCluster grows named sighted h

section
variable (own : item.vm = call.vm) (drawn : ∀ {past}, R past → Drawn item.id past)
include own drawn

theorem remit_moveForScale {destination : HostId} (subject : vm.id = call.vm) (h : R past) :
    Safe (remitted call job) (Remembers R) (moveForScale ctx item vm destination).run past s := by
  refine Safe.ofExcept (fun source _ => ?_) fun _ _ => h
  refine Safe.andThen (remit_plan grows h) ?_ fun _ _ _ h => h
  intro plan past s h
  obtain ⟨about, stay, h⟩ := h
  have heads : Heads call plan := by
    intro id relocation named
    rw [stay] at named
    cases named
  refine Safe.andThen (remit_check grows (about.trans subject) heads h) ?_ fun _ _ _ h => h
  intro checked past s h
  obtain ⟨named, h, -⟩ := h
  have notes : (recordPlan item plan).run.Within (fun r => ∀ past, R past → Remit call past r)
      fun _ => True :=
    .andThen (.ask fun _ _ => trivial)
      (fun now _ => .ask (r := .transact (.planItem item plan now)) fun _ h => ⟨own, drawn h⟩)
      fun _ _ => trivial
  refine Safe.andThen (remit_within grows notes h) ?_ fun _ _ _ h => h.2
  intro _ past s h
  refine Safe.ofProgram (remit_compute grows named h.2) ?_
  intro ending past s h
  rcases ending with (failure | failure | failure) | moved <;> exact h

theorem remit_scaleOn {target : Placement.Target} (h : R past) :
    Safe (remitted call job) (Remembers R)
      (scaleOn ctx item call.vm resources target).run past s := by
  refine Safe.andThen (remit_loadVm grows h) ?_ fun _ _ _ h => h.1
  intro vm past s h
  obtain ⟨h, named⟩ := h
  refine Safe.andThen (Q := Remembers R) ?_ ?_ fun _ _ _ h => h
  · cases target with
    | inPlace host => exact h
    | migrate destination => exact remit_moveForScale grows own drawn (named vm rfl) h
  intro vm past s h
  refine Safe.andThen (remit_query grows (dispatch_within ..) h) ?_ fun _ _ _ h => h.2
  intro _ past s h
  have sets : (do
      demand (.transact (.setResources call.vm resources)) rfl
      loadVm call.vm : Procedure Vm).run.Within
        (fun r => ∀ past, R past → Remit call past r) fun _ => True :=
    .andThen (.demand fun _ _ => rfl)
      (fun _ _ => loadVm_within _ fun _ _ => trivial) fun _ _ => trivial
  exact (remit_within grows sets h.2).mono fun _ _ _ h => h.2

theorem remit_answerCall {growth : Placement.Growth} (about : growth.vm = call.vm)
    (asked : Placement.Call) (h : R past) :
    Safe (remitted call job) (Remembers R) (answerCall ctx item resources growth asked) past s := by
  cases asked with
  | increment =>
    exact (remit_within grows
      (.ask (r := .transact (.charge growth.account growth.delta)) fun _ _ => trivial)
      h).mono fun _ _ _ h => h.2
  | decrement =>
    exact (remit_within grows
      (.ask (r := .transact (.credit growth.account growth.delta)) fun _ _ => trivial)
      h).mono fun _ _ _ h => h.2
  | hasRoom host =>
    exact (remit_query grows (.call (r := .hasRoom host growth.delta) trivial) h).mono
      fun _ _ _ h => h.2
  | selectHost excluded =>
    exact (remit_query grows (.call (r := .selectHost growth.wanted excluded) trivial) h).mono
      fun _ _ _ h => h.2
  | attempt target =>
    simp only [answerCall, about]
    exact remit_scaleOn grows own drawn h

theorem remit_scaleBody (h : R past) :
    Safe (remitted call job) (Remembers R) (scaleBody ctx call.vm resources item).run past s := by
  refine Safe.adapted (remit_loadVm grows h) ?_ fun _ _ _ h => h.1
  intro vm past s h
  obtain ⟨h, named⟩ := h
  refine Safe.ofAdapted (fun _ _ => ?_) fun _ _ => h
  refine Safe.ofAdapted (fun growth grown => ?_) fun _ _ => h
  have about : growth.vm = call.vm := (vm_of_growthOf grown).trans (named vm rfl)
  refine Safe.ofProgram (Safe.run (P := fun past _ => R past)
    (fun asked _ _ h => remit_answerCall grows own drawn about asked h) _ h) ?_
  intro result past s h
  cases result <;> exact h

end
end

theorem remit_begin {operation : Work.Operation} {plan : Option Plan} :
    Safe (remitted call job) (Ends (fun item past _ => item.vm = call.vm ∧ Drawn item.id past)
      fun _ _ => True) (Work.start ctx.node call.vm operation plan).run past s := by
  have locks : (Work.lock ctx.node call.vm).run.Within
    (fun r => ∀ past, True → Remit call past r) fun _ => True :=
    .andThen (.ask fun _ _ => trivial)
      (fun granted _ => by cases granted <;> trivial) fun _ _ => trivial
  refine Safe.andThen (remit_within (R := fun _ => True) (fun _ => trivial) locks trivial) ?_
    fun _ _ _ _ => trivial
  intro _ past s _
  refine Safe.andThen (remit_within (R := fun _ => True) (fun _ => trivial)
    (.ask (r := .now) fun _ _ => trivial) trivial) ?_ fun _ _ _ _ => trivial
  intro now past s _
  refine Safe.andThen (Q := fun result past _ => ∀ id, result = .ok id → Drawn id past)
    (Safe.ask (P := fun _ _ => True) (fun _ _ _ _ _ _ => trivial) (fun _ => rfl) trivial ?_) ?_
    fun _ _ _ _ => trivial
  · intro s _ _
    refine ⟨trivial, fun id s' _ => ⟨trivial, ?_⟩⟩
    intro other same
    cases same
    exact ⟨s.store, List.mem_append_right _ (.head _)⟩
  intro id past s drawn
  have opens : (orUnlock ctx.node call.vm do
      Procedure.pass .beginWork
      demand (.transact (.openItem
        ⟨id, call.vm, ctx.node.id, .started, operation, plan, now, now⟩)) rfl).run.Within
        (fun r => ∀ past, Drawn id past → Remit call past r) fun _ => True := by
    refine .then (P := fun _ => True) (.andThen (.demand fun _ _ => trivial)
      (fun _ _ => .demand fun _ drawn => ⟨rfl, drawn⟩) fun _ _ => trivial) fun result _ => ?_
    cases result with
    | ok _ => trivial
    | error failure =>
      exact .andThen (.ask (r := .unlock _ _) fun _ _ => trivial)
        (fun _ _ => trivial) fun _ _ => trivial
  refine Safe.andThen (remit_within Drawn.append opens (drawn id rfl)) ?_ fun _ _ _ _ => trivial
  intro _ past s h
  exact ⟨rfl, h.2⟩

theorem remit_underWork (call : Call) {operation : Work.Operation} {plan : Option Plan}
    {body : Item → Body α}
    (each : ∀ {item past s}, item.vm = call.vm → Drawn item.id past →
      Safe (remitted call job) (Remembers (Drawn item.id)) (body item).run past s) :
    Safe (remitted call job) Anyhow (underWork ctx call.vm operation plan body).run past s := by
  refine Safe.andThen remit_begin ?_ fun _ _ _ _ => trivial
  intro item past s h
  obtain ⟨own, drawn⟩ := h
  refine Safe.ofProgram (each own drawn) ?_
  intro ending past s drawn
  have settles : (settle ctx item ending).run.Within
      (fun r => ∀ past, Drawn item.id past → Remit call past r) _ :=
    settle_writes (fun _ _ => trivial) (fun _ _ _ _ => trivial) fun _ _ _ drawn => ⟨own, drawn⟩
  exact (remit_within Drawn.append settles drawn).mono fun _ _ _ _ => trivial

theorem remit_locally (call : Call) {operation : Work.Operation}
    {allowed : List State} {event : Event} :
    Safe (remitted call job) Anyhow (locally ctx call.vm operation allowed event).run past s := by
  refine remit_underWork call ?_
  intro item past s own drawn
  refine Safe.adapt (Safe.andThen (remit_query Drawn.append (loadVm_within _ trivial) drawn) ?_
    fun _ _ _ h => h.2)
  intro vm past s h
  refine Safe.ofExcept (fun _ _ => ?_) fun _ _ => h.2
  exact Safe.andThen (remit_run Drawn.append rfl h.2) (fun _ _ _ h => h.2) fun _ _ _ h => h

/-- Whatever it is told, a call only asks for what is its business. -/
theorem remit_perform (call : Call) :
    Safe (remitted call job) Anyhow (call.perform ctx).run past s := by
  have discard : ∀ {α : Type} {action : Procedure α},
    Safe (remitted call job) Anyhow action.run past s →
      Safe (remitted call job) Anyhow (do let _ ← action : Procedure Unit).run past s :=
    fun h => Safe.andThen h (fun _ _ _ _ => trivial) fun _ _ _ _ => trivial
  cases call with
  | start vm =>
    exact discard (remit_underWork (.start vm) fun _ drawn => remit_startBody Drawn.append drawn)
  | stop vm force =>
    exact discard (remit_underWork (.stop vm force) fun _ drawn =>
      remit_stopBody Drawn.append drawn)
  | scale vm resources =>
    exact discard (remit_underWork (.scale vm resources) fun own drawn =>
      remit_scaleBody Drawn.append own (fun drawn => drawn) drawn)
  | destroy vm => exact discard (remit_locally (.destroy vm))
  | recover vm => exact discard (remit_locally (.recover vm))
  | expunge vm => exact discard (remit_locally (.expunge vm))
  | migrate request =>
    refine discard (Safe.andThen (remit_plan (R := fun _ => True) (fun _ => trivial) trivial) ?_
      fun _ _ _ _ => trivial)
    intro plan past s h
    obtain ⟨about, asked, -⟩ := h
    have heads : Heads (.migrate request) plan := by
      intro id relocation named
      rw [asked] at named
      exact congrArg (Option.map (·.pool)) named
    exact remit_underWork (.migrate request) fun _ drawn =>
      remit_migrateBody Drawn.append about heads drawn

end Concurrent
end ControlPlane
