import ControlPlane.Proofs.Concurrent.CrashSafety
import ControlPlane.Proofs.Concurrent.RecordedAnswers
import ControlPlane.Proofs.Logs
import ControlPlane.Proofs.Operation.AnnouncedCommands
import ControlPlane.Proofs.Recovery.ProbeAnswers

/-!
# Why a start goes on to the next host

A start that does not succeed on one host is tried on another, and when no host is left, the machine
is recorded as stopped. For each host that was told to start the machine there is a reason by then
to take it for not running there. One of the reasons is weaker than it looks: where the guru has
refused the start, the host is told to stop the machine, and nobody looks at what it answers.
-/

namespace ControlPlane

namespace Concurrent
open Work Control Operation Procedure Agent

/-- The command has failed, and not because an answer was lost. -/
def Definite (answer : Except Failure Answer) : Prop :=
  (∃ a, answer = .ok a ∧ a.succeeded = false) ∨ ∃ failure, answer = .error failure ∧
    ¬ failure.kind.Ambiguous

/-- The host says that it has done what it was told to, but what else it says makes no sense. -/
def Garbled (k : Kind) (answer : Except Failure Answer) : Prop :=
  ∃ a, answer = .ok a ∧ a.succeeded = true ∧ (Codec.reply k).read? a.payload = none

/-- The guru has refused that a machine runs on a host, and the host was told to stop it. -/
structure Overruled (host : HostId) (body : StartBody) (past : List Exchange) : Prop where
  refused : ∃ vm failure before, vm.id = body.vm ∧ vm.token = body.token ∧
    ⟨.finalizeStart vm host, .error failure, before⟩ ∈ past
  told : ∃ wait answer before,
    ⟨.send (.ofBody host .stop (⟨body.vm, body.token, true⟩ : StopBody) wait),
      answer, before⟩ ∈ past

/-- Why a machine is not taken to run on a host that was told to start it: the host has answered
that it did not, or it has denied the machine since, or the guru has refused. -/
def Dismissed (command : Envelope) (answer : Except Failure Answer)
    (later : List Exchange) : Prop :=
  ∃ body wait, command = .ofBody command.host .start body wait ∧
    (Definite answer ∨ (∃ e ∈ later, Denies command.host body.token e) ∨
      Overruled command.host body later)

def Starts (e : Envelope) : Prop := e.kind = Enumeration.name Kind.start

/-- Every host that was told to start a machine has been dismissed since. -/
def AllDismissed (past : List Exchange) : Prop :=
  ∀ ⦃earlier later command answer before⦄, Starts command →
    past = earlier ++ ⟨.send command, answer, before⟩ :: later →
    Dismissed command answer later

/-- All hosts have been dismissed but for the last one, which was told to start a machine some time
ago. -/
def Leaning (command : Envelope) (answer : Except Failure Answer)
    (later past : List Exchange) : Prop :=
  ∀ ⦃earlier' later' command' answer' before⦄, Starts command' →
    past = earlier' ++ ⟨.send command', answer', before⟩ :: later' →
      Dismissed command' answer' later' ∨ command' = command ∧
      answer' = answer ∧ later' = later

def Relaunches (r : Control.Request) : Prop :=
  (∃ u, r = .transact (.swap u) ∧ u.state = .stopped) ∨ ∃ e, r = .send e ∧ Starts e

def Unstarting (r : Control.Request) : Prop := ∀ e, r = .send e → ¬ Starts e

abbrev wary (s₀ : Shared) (job : Nat) : Contract :=
  minding (Named s₀) (fun past r => Relaunches r → AllDismissed past) job

variable {job : Nat} {s₀ s s' : Shared} {past later : List Exchange} {e : Exchange}
  {host : HostId} {command : Envelope} {answer : Except Failure Answer} {ctx : Context} {v : VmId}
  {vm : Vm} {α : Type}

theorem Overruled.append {body : StartBody} (h : Overruled host body past) :
    Overruled host body (past ++ [e]) := by
  obtain ⟨⟨vm, failure, s, about, token, mem⟩, wait, a, s', mem'⟩ := h
  exact ⟨⟨vm, failure, s, about, token, List.mem_append_left _ mem⟩, wait, a, s',
    List.mem_append_left _ mem'⟩

theorem Dismissed.append (h : Dismissed command answer later) :
    Dismissed command answer (later ++ [e]) := by
  obtain ⟨body, wait, told, definite | ⟨f, mem, denies⟩ | overruled⟩ := h
  · exact ⟨body, wait, told, .inl definite⟩
  · exact ⟨body, wait, told, .inr (.inl ⟨f, List.mem_append_left _ mem, denies⟩)⟩
  · exact ⟨body, wait, told, .inr (.inr overruled.append)⟩

theorem AllDismissed.nil : AllDismissed [] := by
  intro earlier later command answer before _ split
  cases earlier <;> cases split

theorem AllDismissed.append (h : AllDismissed past) (other : Unstarting e.request) :
    AllDismissed (past ++ [e]) := by
  intro earlier later command answer before starts split
  rcases append_singleton_split split with ⟨rfl, rfl, rfl⟩ | ⟨later', rfl, here⟩
  · exact absurd starts (other command rfl)
  · exact (h starts here).append

theorem AllDismissed.started {before : Store} (h : AllDismissed past) :
    Leaning command answer [] (past ++ [⟨.send command, answer, before⟩]) := by
  intro earlier' later' command' answer' before' starts split
  rcases append_singleton_split split with ⟨rfl, same, rfl⟩ | ⟨later'', rfl, here⟩
  · cases same
    exact .inr ⟨rfl, rfl, rfl⟩
  · exact .inl (h starts here).append

theorem Leaning.append (h : Leaning command answer later past) (other : Unstarting e.request) :
    Leaning command answer (later ++ [e]) (past ++ [e]) := by
  intro earlier' later' command' answer' before' starts split
  rcases append_singleton_split split with ⟨rfl, rfl, rfl⟩ | ⟨later'', rfl, here⟩
  · exact absurd starts (other command' rfl)
  · rcases h starts here with dismissed | ⟨rfl, rfl, rfl⟩
    · exact .inl dismissed.append
    · exact .inr ⟨rfl, rfl, rfl⟩

theorem Leaning.dismissed (h : Leaning command answer later past)
    (dismissed : Dismissed command answer later) : AllDismissed past := by
  intro earlier' later' command' answer' before' starts split
  rcases h starts split with other | ⟨rfl, rfl, rfl⟩
  · exact other
  · exact dismissed

theorem unstarting_ofBody {k : Kind} (other : k ≠ .start) (host : HostId)
    (body : k.Body) (wait : Span) :
    Unstarting (.send (.ofBody host k body wait)) := by
  rintro e ⟨⟩ starts
  exact other (Kind.name_injective starts)

theorem unstarting_of_silent {r : Control.Request} (silent : r.Silent) : Unstarting r := by
  rintro e rfl
  exact absurd trivial silent.2

theorem unstarting_of_mild {r : Control.Request} (mild : ¬ Relaunches r) : Unstarting r :=
  fun e same starts => mild (.inr ⟨e, same, starts⟩)

theorem mild_of_other {r : Control.Request} (noSwap : ∀ u, r ≠ .transact (.swap u))
    (noSend : ∀ e, r ≠ .send e) : ¬ Relaunches r := by
  rintro (⟨u, same, -⟩ | ⟨e, same, -⟩)
  · exact noSwap u same
  · exact noSend e same

theorem mild_of_silent {r : Control.Request} (silent : r.Silent) : ¬ Relaunches r := by
  refine mild_of_other (noSwap_of_quiet silent.1) ?_
  rintro e rfl
  exact silent.2 trivial

theorem mild_ofBody {k : Kind} (other : k ≠ .start) (host : HostId)
    (body : k.Body) (wait : Span) :
    ¬ Relaunches (.send (.ofBody host k body wait)) := by
  rintro (⟨u, e, -⟩ | ⟨e, same, starts⟩)
  · cases e
  · exact unstarting_ofBody other host body wait e same starts

theorem mild_of_probe {token : String} {wait : Span} :
    ¬ Relaunches (.send (probe host token wait)) :=
  mild_ofBody (k := .checkState) (by decide) host ⟨token⟩ wait

theorem mild_of_clerical {r : Control.Request} (clerical : r.Clerical) : ¬ Relaunches r := by
  apply mild_of_other
  · rintro u rfl
    exact clerical
  · rintro e rfl
    exact clerical

theorem wary_within {P : α → Prop} {p : Program surroundings α} (within : p.Within Unstarting P)
    (h : AllDismissed past) :
    Safe (wary s₀ job) (fun a past _ => P a ∧ AllDismissed past) p past s :=
  Safe.minds within (fun _ h _ => h) (fun other h => h.append other) h

/-- What neither records that the machine has stopped nor tells a host to start it may be done at
any time. -/
theorem mild_within {P : α → Prop} {p : Program surroundings α}
    (within : p.Within (fun r => ¬ Relaunches r) P) : Safe (wary s₀ job) Anyhow p past s :=
  (Safe.minds (R := fun _ => True) within (fun mild _ again => absurd again mild)
    (fun _ _ => trivial) trivial).mono fun _ _ _ _ => trivial

def Identifies (s₀ : Shared) (v : VmId) (vm : Vm) : Prop :=
  vm.id = v ∧ ∃ vm₀, s₀.store.vm? v = some vm₀ ∧ vm.token = vm₀.token

theorem identifies_of_vm? (named : Named s₀ s) (stored : s.store.vm? v = some vm) :
    Identifies s₀ v vm :=
  ⟨Store.id_of_vm? stored, named v vm stored⟩

theorem Identifies.token_eq {vm' : Vm} (h : Identifies s₀ v vm) (h' : Identifies s₀ v vm') :
    vm.token = vm'.token := by
  obtain ⟨-, vm₀, stored, token⟩ := h
  obtain ⟨-, vm₁, stored', token'⟩ := h'
  cases stored.symm.trans stored'
  exact token.trans token'.symm

theorem lasting_dismissed : Lasting (wary s₀ job) Unstarting fun past _ => AllDismissed past where
  stable := stable_minding
  fit _ h _ _ := h
  keeps other h := h.append other

theorem wary_loadVm (h : AllDismissed past) :
    Safe (wary s₀ job) (fun result past _ => AllDismissed past ∧ ∀ vm, result = .ok vm →
      Identifies s₀ v vm)
      (loadVm v).run past s :=
  safe_loadVm (K := Unstarting) (T := fun vm _ _ => Identifies s₀ v vm) (by rintro _ ⟨⟩)
    lasting_dismissed h fun named stored _ => identifies_of_vm? named stored

theorem wary_run {t : Transition} (h : AllDismissed past) :
    Safe (wary s₀ job)
      (Ends (fun written past _ => AllDismissed past ∧ Identifies s₀ t.vm written)
        fun past _ => AllDismissed past) t.run.run past s := by
  refine Safe.minds_run (K := Unstarting) (by rintro _ ⟨⟩) (by rintro _ ⟨⟩)
    (by rintro _ _ ⟨⟩) (fun _ h _ => h) (fun other h => h.append other) ?_ h
  intro past s vm u named h stored _
  obtain ⟨id, vm₀, stored₀, token⟩ := identifies_of_vm? named stored
  exact ⟨h.append (by rintro _ ⟨⟩), id, vm₀, stored₀, token⟩

theorem definite_or_garbled {k : Kind} {failure : Failure}
    (h : k.interpret host answer = .error failure) (certain : ¬ failure.kind.Ambiguous) :
    Definite answer ∨ Garbled k answer := by
  cases answer with
  | error failure' =>
    cases h
    exact .inl (.inr ⟨failure, rfl, certain⟩)
  | ok a =>
    cases refused : a.succeeded with
    | false => exact .inl (.inl ⟨a, rfl, refused⟩)
    | true =>
      simp only [Kind.interpret, refused, if_true] at h
      cases content : (Codec.reply k).read? a.payload with
      | none => exact .inr ⟨a, rfl, refused, content⟩
      | some reply =>
        rw [content] at h
        cases h

/-- A start that a host reports says nothing that could be misread. -/
theorem definite_of_interpret {failure : Failure}
    (h : Kind.start.interpret host answer = .error failure) (certain : ¬ failure.kind.Ambiguous) :
    Definite answer := by
  refine (definite_or_garbled h certain).resolve_right ?_
  rintro ⟨a, -, -, content⟩
  cases content

def Leans (host : HostId) (body : StartBody) (past : List Exchange) : Prop :=
  ∃ wait answer later, Leaning (.ofBody host .start body wait) answer later past

theorem wary_sendResolved {body : StartBody} {wait : Span} (h : AllDismissed past) :
    Safe (wary s₀ job) (fun resolution past _ => Leans host body past ∧
      ∀ failure, resolution = .failed failure → AllDismissed past)
      (sendResolved ctx host body.token .on .start body wait) past s := by
  refine Safe.then (Q := fun result past _ => ∃ answer,
    result = Kind.start.interpret host answer ∧
      Leaning (.ofBody host .start body wait) answer [] past) ?_ ?_
  · refine Safe.observe (P := fun past _ => AllDismissed past) trivial stable_minding
      h (fun _ h _ _ => h) fun s answer h _ _ => ?_
    exact ⟨answer, rfl, h.started⟩
  rintro result past s ⟨answer, interpreted, leaning⟩
  cases result with
  | ok _ => exact ⟨⟨wait, answer, [], leaning⟩, by rintro _ ⟨⟩⟩
  | error failure =>
    by_cases lost : failure.kind.Ambiguous
    · simp only [if_pos lost]
      refine Safe.then (Q := fun power past _ => ∃ e,
        Leaning (.ofBody host .start body wait) answer [e] past ∧
        (power = .ok .off → Denies host body.token e)) ?_ ?_
      · refine Safe.observe (P := fun past _ =>
          Leaning (.ofBody host .start body wait) answer [] past) trivial
          stable_minding leaning (fun _ _ _ again => absurd again mild_of_probe)
            fun s reply leaning _ _ => ?_
        exact ⟨_, leaning.append (unstarting_of_mild mild_of_probe),
          fun off => ⟨⟨_, rfl⟩, off⟩⟩
      · rintro power past s ⟨e, leaning, denies⟩
        refine ⟨⟨wait, answer, [e], leaning⟩, fun failure' failed => ?_⟩
        -- Of the replies to a probe, only this one makes a failure of an answer that was lost.
        have off : power = .ok .off := by
          rcases power with _ | _ | _ | _ <;> first | rfl | cases failed
        exact leaning.dismissed ⟨body, wait, rfl,
          .inr (.inl ⟨e, List.mem_singleton_self e, denies off⟩)⟩
    · simp only [if_neg lost]
      refine ⟨⟨wait, answer, [], leaning⟩,
        fun _ _ => leaning.dismissed ⟨body, wait, rfl, .inl ?_⟩⟩
      exact definite_of_interpret interpreted.symm lost

def Disputed (host : HostId) (body : StartBody) (past : List Exchange) : Prop :=
  ∃ wait answer later, Leaning (.ofBody host .start body wait) answer later past ∧
    ∃ vm failure before, vm.id = body.vm ∧ vm.token = body.token ∧
      ⟨.finalizeStart vm host, .error failure, before⟩ ∈ later

/-- The host in question is told to stop the machine. Whatever it answers, it is dismissed. -/
theorem wary_forceStop {starting : Vm} {body : StartBody} (id : starting.id = body.vm)
    (token : starting.token = body.token) (h : Disputed host body past) :
    Safe (wary s₀ job) (fun _ past _ => AllDismissed past)
      (forceStop ctx starting host) past s := by
  have mild : ¬ Relaunches
    (.send (.ofBody host .stop (⟨starting.id, starting.token, true⟩ : StopBody)
      ctx.waits.stopWait)) := mild_ofBody (k := .stop) (by decide) _ _ _
  refine Safe.observe (P := fun past _ => Disputed host body past) trivial stable_minding h
    (fun _ _ _ again => absurd again mild) fun s answer h _ _ => ?_
  obtain ⟨wait, told, later, leaning, vm, failure, before, about, known, mem⟩ := h
  refine Leaning.dismissed (leaning.append (unstarting_of_mild mild))
    ⟨body, wait, rfl, .inr (.inr ⟨?_, ?_⟩)⟩
  · exact ⟨vm, failure, before, about, known, List.mem_append_left _ mem⟩
  · rw [id, token]
    exact ⟨_, answer, s.store, List.mem_append_right _ (List.mem_singleton_self _)⟩

theorem mild_finishStart (starting : Vm) :
    (finishStart starting).run.Within (fun r => ¬ Relaunches r) fun _ => True := by
  have read : ∀ v, ¬ Relaunches (.transact (.vm v)) :=
    fun _ => mild_of_silent ⟨trivial, fun no => no⟩
  have runs : ∀ u : StateUpdate, State.starting.next? .operationSucceeded = some u.state →
      ¬ Relaunches (.transact (.swap u)) := by
    rintro u legal (⟨_, ⟨⟩, stops⟩ | ⟨e, same, -⟩)
    · rw [stops] at legal
      cases legal
    · cases same
  refine .andThen (P := fun _ => True) (Transition.run_asks _ (read _)
    (mild_of_silent ⟨trivial, fun no => no⟩) fun u _ => runs u)
    (fun running _ => ?_) fun _ _ => trivial
  have loaded : (loadVm running.id).run.Within (fun r => ¬ Relaunches r) fun _ => True :=
    loadVm_within _ (read _)
  cases starting.credentialsPending with
  | false => exact loaded
  | true =>
    exact .andThen (P := fun _ => True) (.demand (mild_of_other nofun nofun)) (fun _ _ => loaded)
      fun _ _ => trivial

theorem wary_startOn {starting : Vm} (id : starting.id = vm.id) (token : starting.token = vm.token)
    (h : AllDismissed past) :
    Safe (wary s₀ job) (fun result past _ => ∀ failure, result = .ok (.refused failure) →
      AllDismissed past)
      (startOn ctx vm starting host).run past s := by
  refine Safe.ofProgram (Q := fun resolution past _ =>
    Leans host ⟨vm.id, vm.token, vm.resources, vm.credentialsPending⟩ past ∧
      ∀ failure, resolution = .failed failure → AllDismissed past) (wary_sendResolved h)
    fun resolution past s h => ?_
  obtain ⟨⟨wait, answer, later, leaning⟩, failed⟩ := h
  cases resolution with
  | unknown failure => exact nofun
  | failed failure => exact fun _ _ => failed failure rfl
  | succeeded =>
    have mild : ¬ Relaunches (.finalizeStart starting host) :=
      mild_of_silent ⟨trivial, fun no => no⟩
    refine Safe.ofProgram (Q := fun result past _ => ∀ failure, result = .error failure →
      Disputed host ⟨vm.id, vm.token, vm.resources, vm.credentialsPending⟩ past) ?_
        fun finalized past s h => ?_
    · refine Safe.observe (P := fun past _ => Leaning _ answer later past) trivial
        stable_minding leaning (fun _ _ _ again => absurd again mild) fun s reply leaning _ _ => ?_
      rintro failure rfl
      refine ⟨wait, answer, _, leaning.append (unstarting_of_mild mild), starting, failure,
        s.store, id, token, ?_⟩
      exact List.mem_append_right _ (List.mem_singleton_self _)
    · rcases finalized with failure | _
      · exact Safe.ofProgram (wary_forceStop id token (h failure rfl)) fun _ _ _ h _ _ => h
      · exact Safe.adapted (mild_within (mild_finishStart starting)) (fun _ _ _ _ => nofun)
          fun _ _ _ _ => nofun

theorem wary_tryStart (named : Identifies s₀ vm.id vm) (remaining : Nat)
    (excluded : Placement.Exclusions) (last : Option Failure) (h : AllDismissed past) :
    Safe (wary s₀ job) Anyhow (tryStart ctx vm remaining excluded last).run past s := by
  -- On the attempts that are left: one that goes on to the next has dismissed its own host as well.
  induction remaining generalizing excluded last past s with
  | zero => trivial
  | succ remaining ih =>
    have asks : ∀ wanted : Placement.Wanted, Unstarting (.selectHost wanted excluded) := by
      rintro wanted _ ⟨⟩
    refine Safe.adapted (wary_within (.demand (asks _)) h) (fun chosen past s h => ?_)
      fun _ _ _ _ => trivial
    cases chosen with
    | none => trivial
    | some host =>
      refine Safe.adapted (wary_loadVm h.2) (fun current past s h => ?_) fun _ _ _ _ => trivial
      simp only [refusing]
      refine Safe.adapted (wary_run h.1) (fun starting past s h => ?_) fun _ _ _ _ => trivial
      obtain ⟨h, same⟩ := h
      refine Safe.andThen (wary_startOn same.1 (same.token_eq named) h) (fun attempt past s h => ?_)
        fun _ _ _ _ => trivial
      cases attempt with
      | running vm => trivial
      | refused failure =>
        refine Safe.adapted (wary_run (h failure rfl)) (fun _ past s h => ?_) fun _ _ _ _ => trivial
        exact ih _ _ h.1

theorem wary_start :
    Safe (wary s₀ job) Anyhow (Operation.start ctx v).run [] s := by
  have begins {operation : Work.Operation} {plan : Option Plan} :
      (Work.start ctx.node v operation plan).run.Within Unstarting fun _ => True :=
    (start_within ..).mono (fun _ clerical => unstarting_of_mild (mild_of_clerical clerical))
      fun _ _ => trivial
  refine Safe.andThen (wary_within begins .nil) (fun item past s h => ?_) fun _ _ _ _ => trivial
  refine Safe.ofProgram (Q := Anyhow) ?_ fun ending past s _ => mild_within
    (settle_asks (fun _ => mild_of_clerical) fun _ _ => mild_of_other nofun nofun)
  refine Safe.adapted (wary_loadVm (v := v) h.2) (fun vm past s h => ?_) fun _ _ _ _ => trivial
  obtain ⟨h, named⟩ := h
  have named : Identifies s₀ v vm := named vm rfl
  refine Safe.ofAdapted (fun _ _ => ?_) fun _ _ => trivial
  refine Safe.adapted
    (wary_within ((requireGuru_within vm.role).mono (fun _ => unstarting_of_silent)
      fun _ p => p) h) (fun _ past s h => ?_) fun _ _ _ _ => trivial
  exact wary_tryStart (named.1 ▸ named) _ _ _ h.2

variable {sys : System Duty (Except Failure Unit)}
  {j : Job Duty (Except Failure Unit)} {store : Store}

/-- Whatever the planner, the guru and the hosts do, and whatever else is going on: whenever a start
is about to record the machine as stopped again, or to tell a host to start it, then each host that
it has told to start the machine before has been dismissed since. The host has answered that it did
not start the machine, or has denied it when it was asked for its power; or the guru has refused the
start, and the host was told to stop the machine. -/
theorem restarts_on_dismissal (reached : Reaches duties (.start store) sys) (mem : j ∈ sys.jobs)
    (starts : j.task = .operate ctx (.start v)) (waits : j.waits = true) {r : Control.Request}
    {rest : r.Reply → Program surroundings (Except Failure Unit)} (asks : j.program = .ask r rest)
    (again : Relaunches r) {before after : List Exchange} {seen : Store}
    (told : j.past = before ++ ⟨.send command, answer, seen⟩ :: after)
    (starting : Starts command) :
    ∃ body wait, command = .ofBody command.host .start body wait ∧
      (Definite answer ∨ (∃ e ∈ after, Denies command.host body.token e) ∨
        Overruled command.host body after) := by
  have named : ∀ {sys : System Duty (Except Failure Unit)}, Reaches duties (.start store) sys →
      Named ⟨store, {}, []⟩ sys.shared := named_of_reaches
  have safe : ∀ k s, Safe (wary ⟨store, {}, []⟩ k) Anyhow (duties.program j.task) [] s := by
    intro k s
    rw [starts]
    exact Safe.andThen wary_start (fun _ _ _ _ => trivial) fun _ _ _ _ => trivial
  have fit := (minds_of_reaches named safe reached mem).fit (named reached) waits asks
  exact fit again starting told

def Inconclusive : Exchange → Prop
  | ⟨.send e, .ok a, _⟩ => Starts e ∧ a.succeeded = true
  | ⟨.send e, .error _, _⟩ => ¬ Starts e
  | ⟨.sendBoth .., _, _⟩ => False
  | _ => True

instance (e : Envelope) : Decidable (Starts e) := by
  unfold Starts
  infer_instance

instance (e : Exchange) : Decidable (Inconclusive e) := by
  unfold Inconclusive
  split <;> infer_instance

def sent? : Exchange → Option Envelope
  | ⟨.send e, _, _⟩ => some e
  | _ => none

/-- The planner names one host and then another. The guru refuses that the machine runs on either,
and no answer comes to the command to stop it. -/
def vetoed : Oracle
  | .selectHost _ excluded => .ok (some (if excluded.rulesOut ⟨5⟩ then ⟨6⟩ else ⟨5⟩))
  | .finalizeStart .. => .error (.fault (.other "guest did not report in"))
  | r => Oracle.smooth ⟨0, 1⟩ ⟨5⟩ (fun e => if Starts e then .ok (.success [])
      else .error (.agentUnavailable e.host (.noSession e.kind))) r

/-- The second host is about to be told to start a machine that the first host has started. Nothing
was heard of it since, and nobody has asked. -/
theorem lost_stop_dismisses :
    ∃ sys j command answer seen before after second rest,
      Reaches duties (.start oneAsleep) sys ∧ j ∈ sys.jobs ∧
      j.task = .operate trial (.start ⟨1⟩) ∧ j.waits = true ∧
      j.program = .ask (.send second) rest ∧ Starts second ∧ second.host = ⟨6⟩ ∧
      j.past = before ++ ⟨.send command, answer, seen⟩ :: after ∧ Starts command ∧
      command.host = ⟨5⟩ ∧ (∀ e ∈ j.past, Inconclusive e) ∧
      ∃ body wait, command = .ofBody command.host .start body wait ∧
        (Definite answer ∨ (∃ e ∈ after, Denies command.host body.token e) ∨
          Overruled command.host body after) := by
  have leads : ((play? duties (.start oneAsleep)
      (.launch (.operate trial (.start ⟨1⟩)) :: advance 0 23 vetoed ++ [.make 0])).any
      fun sys =>
        sys.jobs.any fun j => j.task = .operate trial (.start ⟨1⟩) ∧
        (∀ e ∈ j.past, Inconclusive e) ∧
          ((command? j).any fun e => Starts e ∧ e.host = ⟨6⟩) ∧
          j.past.any fun e => (sent? e).any fun e => Starts e ∧ e.host = ⟨5⟩) = true := by
    decide +kernel
  obtain ⟨sys, played, leads⟩ := (Option.any_eq_true ..).1 leads
  obtain ⟨j, mem, leads⟩ := List.any_eq_true.1 leads
  obtain ⟨task, quiet, asks, told⟩ := of_decide_eq_true leads
  obtain ⟨second, asks, again⟩ := (Option.any_eq_true ..).1 asks
  obtain ⟨waits, -, rest, asks⟩ := program_of_command? asks
  obtain ⟨again, there⟩ := of_decide_eq_true again
  obtain ⟨⟨r, answer, seen⟩, told, sends⟩ := List.any_eq_true.1 told
  obtain ⟨command, sends, starting⟩ := (Option.any_eq_true ..).1 sends
  obtain ⟨starting, here⟩ := of_decide_eq_true starting
  obtain ⟨before, after, split⟩ := List.append_of_mem told
  have reached : Reaches duties (.start oneAsleep) sys := (runs_of_play? played).reaches
  cases r with
  | send e =>
    cases sends
    exact ⟨sys, j, command, answer, seen, before, after, second, rest, reached, mem,
      task, waits, asks, again, there, split, starting, here, quiet,
      restarts_on_dismissal reached mem task waits asks
        (.inr ⟨second, rfl, again⟩) split starting⟩
  | _ => cases sends

end Concurrent
end ControlPlane
