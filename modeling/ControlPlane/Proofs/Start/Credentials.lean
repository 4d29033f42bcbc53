import ControlPlane.Proofs.Operation.CommandLetters
import ControlPlane.Proofs.Start.DismissedHosts
import ControlPlane.Proofs.Transition.OtherWrites

/-!
# Credentials that are owed

The manager of a machine may note at any time that the machine is owed new credentials. A start goes
by that note twice: it tells the host what the note was when it first read the record, and it takes
the note back if it was there when the machine was recorded as starting. In between the planner is
asked, and other hosts may be tried.
-/

namespace ControlPlane

def Vm.startBody (vm : Vm) : Agent.StartBody :=
  ⟨vm.id, vm.token, vm.resources, vm.credentialsPending⟩

namespace Concurrent
open Work Control Operation Procedure Agent

/-- The work of a control plane, and what managers write meanwhile. -/
inductive Chore where
  | duty (duty : Duty)
  | write (node : NodeId) (writing : Writing)
deriving DecidableEq

def chores : Workload Chore (Except Failure Unit) where
  program
    | .duty duty => duty.program
    | .write _ writing => writing.program
  node
    | .duty duty => duty.node
    | .write node _ => node

def Once (F : Exchange → Prop) (R : List Exchange → Prop) (past : List Exchange) : Prop :=
  ∃ before e after, past = before ++ e :: after ∧ F e ∧ R after

def Finds (v : VmId) (vm : Vm) (e : Exchange) : Prop :=
  ∃ store, e = ⟨.transact (.vm v), some vm, store⟩ ∧ store.vm? v = some vm

def Enters (v : VmId) (vm : Vm) (e : Exchange) : Prop :=
  ∃ store u, e = ⟨.transact (.swap u), .ok (some (u.apply vm)), store⟩ ∧
    store.vm? v = some vm ∧ u.state = .starting

def Gets (command : Envelope) (answer : Except Failure Answer) (e : Exchange) : Prop :=
  ∃ store, e = ⟨.send command, answer, store⟩

/-- No host was told to start a machine any more; and the host has said that the machine runs, in
its answer or when it was asked. -/
def Booted (host : HostId) (token : String) (answer : Except Failure Answer)
    (later : List Exchange) : Prop :=
  (∀ e ∈ later, Unstarting e.request) ∧
    (Acknowledged answer ∨
      ∃ wait told, (probe host token wait, told) ∈ letters later ∧
      powerOf host told = .ok .on)

def Met (v : VmId) (vm : Vm) : List Exchange → Prop := Once (Finds v vm) fun _ => True

/-- A start has read the record of a machine, and recorded as starting what had become of it. -/
def Trail (v : VmId) (read stood : Vm) (R : List Exchange → Prop) : List Exchange → Prop :=
  Once (Finds v read) (Once (Enters v stood) R)

def Earned (v : VmId) (read stood : Vm) (past : List Exchange) : Prop :=
  ∃ host wait answer, Trail v read stood
    (Once (Gets (.ofBody host .start read.startBody wait) answer)
      (Booted host read.token answer)) past

/-- Of notes, the request may only take back the one about the machine, and for a reason. -/
def Redeems (v : VmId) (past : List Exchange) (r : Control.Request) : Prop :=
  ∀ w pending, r = .transact (.setCredentialsPending w pending) → w = v ∧ pending = false ∧
    ∃ read stood, Earned v read stood past ∧ stood.credentialsPending = true

abbrev settling (v : VmId) (job : Nat) : Contract := minding (fun _ => True) (Redeems v) job

structure Idly (r : Control.Request) : Prop where
  unmarked : ∀ w pending, r ≠ .transact (.setCredentialsPending w pending)
  unstarting : Unstarting r

variable {v : VmId} {job : Nat} {s : Shared} {past : List Exchange} {e : Exchange} {α : Type}
  {ctx : Context} {vm starting read stood : Vm} {host : HostId} {token : String}
  {answer : Except Failure Answer} {F : Exchange → Prop}
  {R T : List Exchange → Prop} {t : Transition}

theorem Once.now (here : F e) (h : R []) : Once F R (past ++ [e]) := ⟨past, e, [], rfl, here, h⟩

theorem Once.imp (le : ∀ after, R after → T after) (h : Once F R past) : Once F T past := by
  obtain ⟨before, e, after, split, here, h⟩ := h
  exact ⟨before, e, after, split, here, le after h⟩

theorem Once.grow (goes : ∀ after, R after → T (after ++ [e])) (h : Once F R past) :
    Once F T (past ++ [e]) := by
  obtain ⟨before, f, after, rfl, here, h⟩ := h
  exact ⟨before, f, after ++ [e], by simp, here, goes after h⟩

theorem Trail.grow (goes : ∀ after, R after → T (after ++ [e]))
    (h : Trail v read stood R past) :
    Trail v read stood T (past ++ [e]) := Once.grow (fun _ => Once.grow goes) h

theorem Met.append (h : Met v vm past) : Met v vm (past ++ [e]) := Once.grow (fun _ _ => trivial) h

theorem Trail.found (h : Trail v read stood R past) : Met v read past :=
  Once.imp (fun _ _ => trivial) h

theorem Booted.append (other : Unstarting e.request) (h : Booted host token answer past) :
    Booted host token answer (past ++ [e]) := by
  obtain ⟨quiet, said⟩ := h
  refine ⟨fun f mem => ?_, said.imp_right fun said => ?_⟩
  · rcases List.mem_append.1 mem with mem | mem
    · exact quiet f mem
    · cases List.mem_singleton.1 mem
      exact other
  · obtain ⟨wait, told, mem, on⟩ := said
    exact ⟨wait, told, letters_append ▸ List.mem_append_left _ mem, on⟩

theorem Earned.append (other : Unstarting e.request) (h : Earned v read stood past) :
    Earned v read stood (past ++ [e]) := by
  obtain ⟨host, wait, answer, h⟩ := h
  exact ⟨host, wait, answer, h.grow fun _ => Once.grow fun _ => Booted.append other⟩

theorem Earned.found (h : Earned v read stood past) : Met v read past := by
  obtain ⟨host, wait, answer, h⟩ := h
  exact h.found

theorem idly_of_clerical {r : Control.Request} (clerical : r.Clerical) : Idly r := by
  refine ⟨?_, unstarting_of_mild (mild_of_clerical clerical)⟩
  rintro w pending rfl
  exact clerical

theorem idly_of_silent {r : Control.Request} (silent : r.Silent) : Idly r := by
  refine ⟨?_, unstarting_of_silent silent⟩
  rintro w pending rfl
  exact silent.1

theorem idly_swap (u : StateUpdate) : Idly (.transact (.swap u)) := by
  constructor
  · rintro w pending ⟨⟩
  · rintro e ⟨⟩

theorem Idly.redeems {r : Control.Request} (idly : Idly r) : Redeems v past r :=
  fun w pending marks => absurd marks (idly.unmarked w pending)

theorem settling_within {P : α → Prop} {p : Program surroundings α} (within : p.Within Idly P)
    (grows : ∀ {past e}, Idly e.request → R past → R (past ++ [e])) (h : R past) :
    Safe (settling v job) (fun a past _ => P a ∧ R past) p past s :=
  Safe.minds within (fun idly _ => idly.redeems) grows h

theorem idly_run (t : Transition) : t.run.run.Within Idly fun _ => True :=
  Transition.run_asks t (idly_of_silent ⟨trivial, fun no => no⟩)
    (idly_of_silent ⟨trivial, fun no => no⟩) fun u _ _ => idly_swap u

theorem settling_enter (subject : t.vm = v) (legal : t.expected.next? t.event = some .starting)
    (h : Met v read past) :
    Safe (settling v job) (Ends (fun written past _ => ∃ stood, written.id = v ∧
        written.credentialsPending = stood.credentialsPending ∧
        Trail v read stood (fun _ => True) past)
      fun past _ => Met v read past) t.run.run past s := by
  subst subject
  have quiet : ∀ {r : Control.Request}, r.Silent → Idly r := idly_of_silent
  refine Safe.minds_run (quiet ⟨trivial, fun no => no⟩)
    (quiet ⟨trivial, fun no => no⟩) idly_swap
    (fun idly _ => idly.redeems) (fun _ h => Met.append h) ?_ h
  intro past s stood u _ h stored legal'
  have starts : u.state = .starting := Option.some.inj (legal'.symm.trans legal)
  refine ⟨stood, (Store.id_of_vm? stored : stood.id = t.vm), rfl, Once.grow (fun _ _ => ?_) h⟩
  exact Once.now ⟨s.store, u, rfl, stored, starts⟩ trivial

/-- If the machine is found to run on the host, it has been started as the first record says. -/
theorem settling_sendResolved {wait : Span} (h : Trail v read stood (fun _ => True) past) :
    Safe (settling v job) (fun resolution past _ => Met v read past ∧
      (resolution = .succeeded → Earned v read stood past))
      (sendResolved ctx host read.token .on .start read.startBody wait) past s := by
  refine Safe.then (Q := fun result past _ => ∃ answer,
    result = Kind.start.interpret host answer ∧
    Trail v read stood (Once (Gets (.ofBody host .start read.startBody wait) answer)
      (· = [])) past) ?_ ?_
  · refine Safe.observe (P := fun past _ => Trail v read stood (fun _ => True) past)
      trivial stable_minding h (fun _ _ _ => nofun) fun s answer h _ _ => ?_
    exact ⟨answer, rfl, h.grow fun _ _ => Once.now ⟨s.store, rfl⟩ rfl⟩
  intro result past s h
  obtain ⟨answer, read', h⟩ := h
  cases result with
  | ok _ =>
    refine ⟨h.found, fun _ => ⟨host, wait, answer,
      h.imp fun _ => Once.imp fun _ => Once.imp ?_⟩⟩
    rintro _ rfl
    exact ⟨fun _ mem => absurd mem List.not_mem_nil,
      .inl (acknowledged_of_interpret read'.symm)⟩
  | error failure =>
    by_cases lost : failure.kind.Ambiguous
    · simp only [if_pos lost]
      refine Safe.then (Q := fun power past _ => Met v read past ∧
        (power = .ok .on → Earned v read stood past)) ?_ ?_
      · refine Safe.observe (P := fun past _ => Trail v read stood _ past) trivial stable_minding h
          (fun _ _ _ => nofun) fun s told h _ _ => ?_
        refine ⟨Trail.found (R := fun _ => True) (h.grow fun _ _ => trivial), fun on => ?_⟩
        refine ⟨host, wait, answer, h.grow fun _ => Once.grow ?_⟩
        rintro _ rfl
        refine ⟨?_, .inr ⟨_, told, List.mem_singleton_self _, on⟩⟩
        intro f mem
        cases List.mem_singleton.1 mem
        exact unstarting_of_mild mild_of_probe
      · intro power past s h
        obtain ⟨found, earned⟩ := h
        refine ⟨found, fun succeeded => earned ?_⟩
        rcases power with _ | _ | _ | _ <;> first | rfl | cases succeeded
    · simp only [if_neg lost]
      exact ⟨h.found, nofun⟩

/-- The note is taken back if it was there when the machine was recorded as starting. -/
theorem settling_finishStart (subject : starting.id = v)
    (same : starting.credentialsPending = stood.credentialsPending) (h : Earned v read stood past) :
    Safe (settling v job) Anyhow (finishStart starting).run past s := by
  have loads : ∀ {id past s}, Safe (settling v job) Anyhow (loadVm id).run past s :=
    fun {_ _ _} =>
    (settling_within (R := fun _ => True)
      (loadVm_within _ (idly_of_silent ⟨trivial, fun no => no⟩))
      (fun _ _ => trivial) trivial).mono fun _ _ _ _ => trivial
  refine Safe.andThen
    (settling_within (idly_run _) (fun idly => Earned.append idly.unstarting) h) ?_
    fun _ _ _ _ => trivial
  intro running past s h
  obtain ⟨-, h⟩ := h
  cases stands : starting.credentialsPending with
  | false => exact loads
  | true =>
    refine Safe.andThen (Q := Anyhow) (Safe.call (P := fun past _ => Earned v read stood past)
      stable_minding (fun _ => rfl) h fun s h _ => ⟨?_, fun _ _ _ => ⟨trivial, trivial⟩⟩)
      (fun _ _ _ _ => loads) fun _ _ _ _ => trivial
    rintro w pending ⟨⟩
    exact ⟨subject, rfl, read, stood, h, same.symm.trans stands⟩

theorem settling_startOn (subject : starting.id = v)
    (same : starting.credentialsPending = stood.credentialsPending)
    (h : Trail v read stood (fun _ => True) past) :
    Safe (settling v job) (fun result past _ => ∀ attempt, result = .ok (.refused attempt) →
      Met v read past) (startOn ctx read starting host).run past s := by
  refine Safe.ofProgram (settling_sendResolved h) fun resolution past s h => ?_
  obtain ⟨found, earned⟩ := h
  cases resolution with
  | unknown failure => exact nofun
  | failed failure => exact fun _ _ => found
  | succeeded =>
    have finalizes : (demand (.finalizeStart starting host) rfl).run.Within Idly fun _ => True :=
      .demand (idly_of_silent ⟨trivial, fun no => no⟩)
    refine Safe.ofProgram
      (settling_within finalizes (fun idly => Earned.append idly.unstarting) (earned rfl)) ?_
    intro finalized past s h
    obtain ⟨-, h⟩ := h
    rcases finalized with failure | _
    · have stops : (forceStop ctx starting host).Within Idly fun _ => True :=
        .then (P := fun _ => True)
          (.call ⟨nofun, unstarting_ofBody (k := .stop) (by decide) _ _ _⟩) fun _ _ => trivial
      refine Safe.ofProgram (settling_within stops (fun _ h => Met.append h) h.found) ?_
      exact fun _ _ _ h _ _ => h.2
    · exact Safe.adapted (settling_finishStart subject same h) (fun _ _ _ _ => nofun)
        fun _ _ _ _ => nofun

theorem settling_tryStart (subject : read.id = v) (remaining : Nat)
    (excluded : Placement.Exclusions) (last : Option Failure) (h : Met v read past) :
    Safe (settling v job) Anyhow (tryStart ctx read remaining excluded last).run past s := by
  have grows : ∀ {past e}, Idly e.request → Met v read past → Met v read (past ++ [e]) :=
    fun _ h => h.append
  have quiet : ∀ {r : Control.Request}, r.Silent → Idly r := idly_of_silent
  -- On the attempts that are left: each goes by the record that was read before the first.
  induction remaining generalizing excluded last past s with
  | zero => trivial
  | succ remaining ih =>
    refine Safe.adapted (settling_within (.demand (quiet ⟨trivial, fun no => no⟩)) grows h) ?_
      fun _ _ _ _ => trivial
    intro chosen past s h
    obtain ⟨-, h⟩ := h
    cases chosen with
    | none => trivial
    | some host =>
      refine Safe.adapted
        (settling_within (loadVm_within _ (quiet ⟨trivial, fun no => no⟩)) grows h) ?_
        fun _ _ _ _ => trivial
      intro current past s h
      simp only [refusing]
      refine Safe.adapted (settling_enter subject rfl h.2) ?_ fun _ _ _ _ => trivial
      intro starting past s h
      obtain ⟨stood, named, same, h⟩ := h
      refine Safe.andThen (settling_startOn named same h) ?_ fun _ _ _ _ => trivial
      intro attempt past s h
      cases attempt with
      | running vm => trivial
      | refused failure =>
        refine Safe.adapted (settling_within (idly_run _) grows (h failure rfl)) ?_
          fun _ _ _ _ => trivial
        intro _ past s h
        exact ih _ _ h.2

theorem settling_start : Safe (settling v job) Anyhow (Operation.start ctx v).run [] s := by
  have clerical : ∀ r : Control.Request, r.Clerical → Idly r := fun _ => idly_of_clerical
  have begins : (Work.start ctx.node v .start none).run.Within Idly fun _ => True :=
    (start_within ..).mono clerical fun _ _ => trivial
  refine Safe.andThen (settling_within (R := fun _ => True) begins (fun _ _ => trivial) trivial) ?_
    fun _ _ _ _ => trivial
  intro item past s _
  refine Safe.ofProgram (Q := Anyhow) ?_ fun ending past s _ => ?_
  · have lasting : Lasting (settling v job) Idly fun _ _ => True :=
      ⟨fun _ _ _ _ _ h => h, fun idly _ _ => idly.redeems, fun _ h => h⟩
    refine Safe.adapted (safe_loadVm (T := fun vm past _ => Met v vm past ∧ vm.id = v)
      (idly_of_silent ⟨trivial, fun no => no⟩) lasting trivial fun _ stored _ =>
        ⟨Once.now ⟨_, rfl, stored⟩ trivial, Store.id_of_vm? stored⟩) ?_
        fun _ _ _ _ => trivial
    · intro vm past s h
      obtain ⟨h, subject⟩ := h.2 vm rfl
      refine Safe.ofAdapted (fun _ _ => ?_) fun _ _ => trivial
      refine Safe.adapted
        (settling_within ((requireGuru_within vm.role).mono (fun _ => idly_of_silent)
          fun _ p => p) (fun _ h => Met.append h) h) ?_ fun _ _ _ _ => trivial
      intro _ past s h
      exact settling_tryStart subject _ _ _ h.2
  · exact (settling_within (R := fun _ => True)
      (settle_asks clerical fun _ _ => ⟨nofun, nofun⟩) (fun _ _ => trivial) trivial).mono
      fun _ _ _ _ => trivial

variable {sys : System Chore (Except Failure Unit)}
  {j : Job Chore (Except Failure Unit)} {store : Store}

/-- Whatever else goes on, and whoever notes in the meantime that the machine is owed new
credentials: a start that is about to take the note back has read the record of the machine, then
recorded the machine as starting when the note was there, and then told a host to start it; and the
host says that it runs. The host was asked for new credentials if the note was there already when
the record was read, and not if it came later. -/
theorem note_is_taken_back (reached : Reaches chores (.start store) sys) (mem : j ∈ sys.jobs)
    (starts : j.task = .duty (.operate ctx (.start v))) (waits : j.waits = true) {w : VmId}
    {pending : Bool} {rest : Except Failure Unit → Program surroundings (Except Failure Unit)}
    (asks : j.program = .ask (.transact (.setCredentialsPending w pending)) rest) :
    w = v ∧ pending = false ∧ ∃ read stood, stood.credentialsPending = true ∧
      Earned v read stood j.past := by
  have safe : ∀ k s, Safe (settling v k) Anyhow (chores.program j.task) [] s := by
    intro k s
    rw [starts]
    exact Safe.andThen settling_start (fun _ _ _ _ => trivial) fun _ _ _ _ => trivial
  have adheres := minds_of_reaches (fun _ => trivial) safe reached mem
  obtain ⟨subject, taken, read, stood, earned, stands⟩ :=
    adheres.fit trivial waits asks w pending rfl
  exact ⟨subject, taken, read, stood, stands, earned⟩

def note? (job : Job Chore (Except Failure Unit)) : Option (VmId × Bool) :=
  match job.program with
  | .ask (.transact (.setCredentialsPending w pending)) _ =>
    if job.waits then some (w, pending) else none
  | _ => none

theorem program_of_note? {job : Job Chore (Except Failure Unit)} {note : VmId × Bool}
    (h : note? job = some note) :
    job.waits = true ∧
      ∃ rest, job.program = .ask (.transact (.setCredentialsPending note.1 note.2)) rest := by
  simp only [note?] at h
  split at h
  next w pending rest asks =>
    split at h
    next waits =>
      cases h
      exact ⟨waits, rest, asks⟩
    · cases h
  · cases h

def unasked : Envelope :=
  .ofBody default .start (⟨⟨1⟩, "i-1", default, false⟩ : StartBody) trial.waits.startWait

/-- The note comes when the start has read the record and has not chosen a host yet. It is about to
be taken back, and no host was asked to make new credentials. -/
theorem early_note_is_taken_back :
    ∃ sys j pending rest, Reaches chores (.start oneAsleep) sys ∧ j ∈ sys.jobs ∧
      j.task = .duty (.operate trial (.start ⟨1⟩)) ∧ j.waits = true ∧
      j.program = .ask (.transact (.setCredentialsPending ⟨1⟩ pending)) rest ∧
      (∀ e ∈ j.past, ∀ command, sent? e = some command → command = unasked) ∧
      pending = false ∧ ∃ read stood, stood.credentialsPending = true ∧
        Earned ⟨1⟩ read stood j.past := by
  have leads : ((play? chores (.start oneAsleep)
      (.launch (.duty (.operate trial (.start ⟨1⟩))) :: advance 0 6 (obedient ⟨0, 1⟩) ++
        .launch (.write ⟨1⟩ (.owe ⟨1⟩ true)) :: advance 1 1 (obedient ⟨0, 1⟩) ++
        advance 0 11 (obedient ⟨0, 1⟩) ++ [.make 0])).any fun sys => sys.jobs.any fun j =>
          j.task = .duty (.operate trial (.start ⟨1⟩)) ∧ (note? j).isSome ∧
            j.past.all fun e => (sent? e).all fun command => command = unasked) = true := by
    decide +kernel
  obtain ⟨sys, played, leads⟩ := (Option.any_eq_true ..).1 leads
  obtain ⟨j, mem, leads⟩ := List.any_eq_true.1 leads
  obtain ⟨task, asks, told⟩ := of_decide_eq_true leads
  obtain ⟨⟨w, pending⟩, asks⟩ := Option.isSome_iff_exists.1 asks
  obtain ⟨waits, rest, asks⟩ := program_of_note? asks
  have reached : Reaches chores (.start oneAsleep) sys := (runs_of_play? played).reaches
  obtain ⟨rfl, taken, earned⟩ := note_is_taken_back reached mem task waits asks
  refine ⟨sys, j, pending, rest, reached, mem, task, waits, asks,
    fun e mem command sends => ?_, taken, earned⟩
  have told := List.all_eq_true.1 told e mem
  rw [sends] at told
  exact of_decide_eq_true told

end Concurrent
end ControlPlane
