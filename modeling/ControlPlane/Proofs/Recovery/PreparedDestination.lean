import ControlPlane.Proofs.Migration.CrossCluster
import ControlPlane.Proofs.Recovery.BrokenMigration

/-!
# What is left at the destination

A destination that was prepared for a machine keeps something for it until it takes over or is told
to clean up. Once the item of the migration is closed, the machine has arrived or is off, or the
destination was told to clean up. There is one way around this: a recovery scan to which the source
says that it has the machine closes the item and tells the destination nothing.
-/

namespace ControlPlane.Concurrent
open Work Control Operation Procedure Migration Agent
open Recovery (known? scan)

/-- Where a process may have stopped: before an answer has come, or at the end of its run. -/
inductive Stops (past : List Exchange) (s : Shared) : List Exchange → Store → Prop
  | midway {before after : List Exchange} {e : Exchange} (split : past = before ++ e :: after) :
      Stops past s before e.before
  | ended : Stops past s past s.store

/-- Recovery scans that come one after the other, and all that they hear. -/
inductive Rescans (v : VmId) : Shared → List Exchange → Shared → Prop
  | rest {s s' : Shared} (rests : Secluded v s s') : Rescans v s [] s'
  | next {s s' s'' : Shared} {past told : List Exchange} {ctx : Context} {job : Nat}
      {result : Except Failure Recovery.Report}
      (scans : Run (Secluded v) job (scan ctx).run [] s result past s')
      (others : Rescans v s' told s'') : Rescans v s (past ++ told) s''

/-- The destination was told to prepare for a machine, and has answered how to reach it. -/
def Prepared (p : Plan) (r : Rendezvous) (past : List Exchange) : Prop :=
  ∃ body wait answer, (Envelope.ofBody p.destination .receive body wait, answer) ∈
    commands past ∧ Kind.receive.interpret p.destination answer = .ok r

def Cleaned (p : Plan) (r : Rendezvous) (past : List Exchange) : Prop :=
  ∃ body wait answer, (Envelope.ofBody p.destination .cleanup body wait, answer) ∈
    commands past ∧ body.ticket = r.ticket

/-- Where a machine is known to be when its item is closed: at the destination, or nowhere, or still
at the source if a scan was told so. -/
inductive Whereabouts (p : Plan) (token : String) (told : List Exchange) (w : Vm) : Prop
  | arrived (state : w.state = .running) (host : w.host = some p.destination)
  | stopped (state : w.state = .stopped)
  | stayed {e : Exchange} (host : w.host = some p.source) (mem : e ∈ told)
      (affirms : Affirms p.source token e)

/-- How far a migration between clusters has come that has sent these commands. Before its checks
are through it has sent none. Then its item stays open until the machine has arrived or the
migration is given up. -/
inductive Account (v : VmId) (item : Item) (first : View) (p : Plan) (pools : Table Pool)
    (l : List Sent) (s : Store) : Prop
  | unsent (none : l = [])
  | unfinished {vm : Vm} {moves? : Option (List VolumeMove)} {view : View}
      (cleared : Cleared p first pools vm) (underway : Underway first p pools moves? view)
      (lodged : Lodged v item view pools s)
  | arrived {vm w : Vm} {last : View} {now : Timestamp} (cleared : Cleared p first pools vm)
      (stored : last.vm = some w) (state : w.state = .running) (host : w.host = some p.destination)
      (lodged : Lodged v { item with step := .done, updated := now } last pools s)
  | givenUp {token : String} {targets : List VolumeTarget} (dropped : Dropped p token targets l)

def Accounted (v : VmId) (first : View) (pools : Table Pool) (past : List Exchange)
    (s : Store) : Prop :=
  ∀ item p, Began item past → item.plan = some p → p.MovesStorage →
    p.crossCluster = true → item.Open ∧ Account v item first p pools (commands past) s

/-- One item has been opened, volumes have been moved as told, and these commands have been sent. -/
structure Noted (item : Item) (moves? : Option (List VolumeMove)) (l : List Sent)
    (past : List Exchange) :
    Prop where
  chronicled : Chronicled item moves? past
  commands : commands past = l

abbrev accounting (v : VmId) (job : Nat) (first : View) (pools : Table Pool) : Contract :=
  secluded v job (Accounted v first pools)

variable {v : VmId} {job : Nat} {s s' : Shared} {past past' lived told told' : List Exchange}
  {item x : Item} {view first : View} {pools : Table Pool} {ctx : Context} {vm w : Vm} {p : Plan}
  {α : Type} {store : Store} {l : List Sent} {r : Rendezvous} {token : String}
  {moves? : Option (List VolumeMove)} {node : NodeId} {Ψ : List Volume → Prop}
  {result : Except Failure Recovery.Report}

theorem Stops.known {I : List Exchange → Store → Prop} (stops : Stops past s lived store)
    (ends : I past s.store)
    (points : ∀ before e after, past = before ++ e :: after → I before e.before) :
    I lived store := by
  cases stops with
  | midway split => exact points _ _ _ split
  | ended => exact ends

/-- What is known at each point of a run is known where its process stops. -/
theorem holds_of_stops {I : List Exchange → Store → Prop} {q : Program surroundings α} {a : α}
    (h : Safe (secluded v job I) (fun _ past s => I past s.store) q [] s)
    (run : Run (Secluded v) job q [] s a past s') (stops : Stops past s' lived store) :
    I lived store := by
  obtain ⟨ends, points⟩ := h.chronicle run
  exact stops.known ends fun _ _ _ split => points _ _ _ split (Nat.zero_le _)

theorem calm_noted : Calm (Noted item moves? l) := by
  rintro past e opens moves sends ⟨chronicled, rfl⟩
  refine ⟨unmoved_chronicled opens moves chronicled, ?_⟩
  rw [commands_append, Exchange.commands_of_other fun commands => sends commands.sends,
    List.append_nil]

section
variable (ticket : Ticket item p node)
include ticket

theorem accounted_of_sole (sole : ∀ {other}, Began other past → other = item)
    (account : p.MovesStorage → p.crossCluster = true →
      Account v item first p pools (commands past) store) :
    Accounted v first pools past store := by
  intro other p' began planned moves across
  obtain rfl := sole began
  cases ticket.plan.symm.trans planned
  exact ⟨ticket.isOpen, account moves across⟩

theorem accounted_of_sails (cleared : Cleared p first pools vm)
    (underway : Underway first p pools moves? view) (h : Sails v item view pools moves? past s) :
    Accounted v first pools past s.store :=
  accounted_of_sole ticket h.2.sole fun _ _ => .unfinished cleared underway h.1

/-- While a migration is being settled it sends nothing more. -/
theorem accounted_settle {ending : Except Ending Vm} (h : Sails v item view pools moves? past s)
    (before : ∀ {s}, p.MovesStorage → p.crossCluster = true → Lodged v item view pools s →
      Account v item first p pools (commands past) s)
    (after : ∀ {s now}, p.MovesStorage → p.crossCluster = true →
      Lodged v (leaves item now ending) view pools s →
      Account v item first p pools (commands past) s) :
    Safe (accounting v job first pools) (fun _ past s => Accounted v first pools past s.store)
      (settle ctx item ending).run past s := by
  generalize same : commands past = l at before after
  have waits : ∀ {past s}, Lodges v item view pools (Noted item moves? l) past s →
      Accounted v first pools past s.store := by
    rintro past s ⟨lodged, chronicled, rfl⟩
    exact accounted_of_sole ticket chronicled.sole fun moves across => before moves across lodged
  have ends : ∀ {past s now}, Lodges v (leaves item now ending) view pools
    (Noted item moves? l) past s → Accounted v first pools past s.store := by
    rintro past s now ⟨lodged, chronicled, rfl⟩
    exact accounted_of_sole ticket chronicled.sole fun moves across => after moves across lodged
  exact (lodges_settle calm_noted waits ends ⟨h.1, h.2, same⟩).mono
    fun _ _ _ ⟨_, _, h⟩ => ends h

end

def Departs (v : VmId) (item : Item) (first : View) (p : Plan) (pools : Table Pool) :
    Except Ending Vm → Assertion
  | .ok w => Arrived v item first p pools w
  | .error ending => fun past s => Falters p item past ending ∧ ∃ moves? view,
      Underway first p pools moves? view ∧ Sails v item view pools moves? past s ∧
        (commands past = [] ∨ ∃ vm, Cleared p first pools vm)

section
variable (ticket : Ticket item p node)
include ticket

theorem lasting_departure :
    Lasting (accounting v job first pools) Request.Silent fun past s =>
      Sails v item first pools none past s ∧ Logged p item [] past where
  stable _ _ _ rely _ h := ⟨⟨h.1.1.alike rely, h.1.2⟩, h.2⟩
  fit _ h _ := accounted_of_sole ticket h.1.2.sole fun _ _ => .unsent h.2.commands
  keeps silent h := ⟨⟨h.1.1, unmoved_chronicled (no_openItem_of_quiet silent.1)
    (by rintro _ rfl; exact silent.1) h.1.2⟩, h.2.append (unlogged_of_silent silent)⟩

theorem departs_acrossClusters {targets : List VolumeTarget} (cleared : Cleared p first pools vm)
    (laden : targets.map VolumeTarget.relocation = p.volumes.rows)
    (h : Sails v item first pools none past s) (logged : Logged p item [] past) :
    Safe (accounting v job first pools) (Departs v item first p pools)
      (acrossClusters ctx vm p targets).run past s := by
  refine ((charted_acrossClusters (accounted_of_sails ticket cleared) cleared laden h).recall
    (coursed_acrossClusters logged)).mono ?_
  rintro (ending | w) past s ⟨h, coursed⟩
  · obtain ⟨moves?, view, underway, h⟩ := h
    exact ⟨coursed, moves?, view, underway, h, .inr ⟨vm, cleared⟩⟩
  · exact h

theorem departs_migrateBody (moves : p.MovesStorage) (across : p.crossCluster = true)
    (subject : p.vm = v) (h : Sails v item first pools none past s)
    (logged : Logged p item [] past) :
    Safe (accounting v job first pools) (Departs v item first p pools)
      (migrateBody ctx p).run past s := by
  refine Safe.adapted (safe_cleared (lasting_departure ticket) (fun h => h.1.1.pools) subject
    (fun h => h.1.1.view) ⟨h, logged⟩) ?_ ?_
  · rintro ⟨vm, targets⟩ past s ⟨⟨h, logged⟩, checked⟩
    obtain ⟨cleared, laden⟩ := checked _ rfl
    simp only [if_neg (not_not_intro moves), if_pos across]
    exact departs_acrossClusters ticket cleared laden h logged
  · rintro failure past s ⟨⟨h, logged⟩, -⟩
    exact ⟨logged, none, first, underway_first, h, .inl logged.commands⟩

/-- The item of a migration between clusters tells how its body has ended. -/
theorem departs_settle {ending : Except Ending Vm}
    (h : Departs v item first p pools ending past s) :
    Safe (accounting v job first pools) (fun _ past s => Accounted v first pools past s.store)
      (settle ctx item ending).run past s := by
  rcases ending with ending | w
  · obtain ⟨falters, moves?, view, underway, h, known⟩ := h
    have waits : ∀ {s}, p.MovesStorage → p.crossCluster = true →
      Lodged v item view pools s → Account v item first p pools (commands past) s := by
      intro s _ _ lodged
      obtain none | ⟨vm, cleared⟩ := known
      · exact .unsent none
      · exact .unfinished cleared underway lodged
    refine accounted_settle ticket h waits ?_
    cases ending with
    | rejected failure => exact fun _ _ _ => .unsent falters.commands
    | failed failure =>
      obtain ⟨token, targets, l, dropped, logged⟩ := falters
      exact fun _ _ _ => .givenUp (logged.commands.symm ▸ dropped)
    | unresolved failure => exact waits
  · obtain ⟨vm, moves?, last, cleared, moored, underway, h⟩ := h
    refine accounted_settle ticket h (fun _ _ => .unfinished cleared underway) fun _ _ lodged => ?_
    exact .arrived cleared moored.stored moored.state moored.host lodged

end

/-- At every point of a migration between clusters it is known how far it has come. -/
theorem accounted_migrate {request : Migration.Request} (h : Dawns request.vm first pools past s)
    (pristine : Pristine past) :
    Safe (accounting request.vm job first pools)
      (fun _ past s => Accounted request.vm first pools past s.store)
        (migrate ctx request).run past s := by
  have dawns : ∀ {past s}, Dawns request.vm first pools past s →
      Accounted request.vm first pools past s.store :=
    fun h item _ began => absurd began (h.began item)
  refine Safe.andThen ((safe_plan (lasting_dawns dawns) h).recall (pristine_plan pristine)) ?_
    fun _ _ _ h => dawns h.1.1
  rintro p past s ⟨⟨h, planned⟩, pristine⟩
  obtain ⟨subject, -, -⟩ := planned p rfl
  refine Safe.andThen (((heralded_dawns dawns).start h).recall (pristine_start pristine)) ?_
    fun _ _ _ h => dawns h.1
  rintro item past s ⟨⟨ticket, h⟩, -, pristine⟩
  by_cases crossing : p.MovesStorage ∧ p.crossCluster = true
  · refine Safe.ofProgram (departs_migrateBody ticket crossing.1 crossing.2 subject h
      (logged_of_pristine h.2.sole pristine)) fun ending past s h => ?_
    exact departs_settle ticket h
  · have other : ∀ {past store}, p.MovesStorage → p.crossCluster = true →
        Account request.vm item first p pools (commands past) store :=
      fun moves across => absurd ⟨moves, across⟩ crossing
    refine Safe.ofProgram (charted_migrateBody (I := Accounted request.vm first pools)
      (fun _ h => accounted_of_sole ticket h.2.sole other) subject h) fun ending past s h => ?_
    obtain ⟨moves?, last, h⟩ := sails_of_ends h
    exact accounted_settle ticket h (fun moves across _ => other moves across)
      fun moves across _ => other moves across

theorem stowage_backed : Stowage p pools vm [] (p.Backed pools) fun _ => True where
  backed := id
  before _ backed := backed.under _
  after _ _ := trivial
  arrives _ := trivial
  arrived _ _ := trivial

theorem Whereabouts.mono (h : Whereabouts p token told w) (sub : told ⊆ told') :
    Whereabouts p token told' w := by
  cases h with
  | arrived state host => exact .arrived state host
  | stopped state => exact .stopped state
  | stayed host mem affirms => exact .stayed host (sub mem) affirms

/-- Only a scan to which the source says that it has the machine leaves it there. -/
theorem affirms_of_found {F : Exchange → Prop} {token : String}
    (found : Found F ctx v p token .stayed) :
    ∃ e, F e ∧ Affirms p.source token e := by
  generalize same : Finding.stayed = finding at found
  cases found with
  | refused => cases same
  | heard told heard =>
    obtain ⟨answers, before⟩ := heard
    refine ⟨_, told, ⟨_, rfl⟩, ?_⟩
    revert same
    generalize Agent.powerOf p.source answers.1 = source
    generalize known? (Agent.powerOf p.destination answers.2) = destination
    rcases source with _ | _ | _ | _ <;> rcases destination with _ | _ | _ | _ <;>
      simp [Finding.of, known?]

/-- A scan that does not come to the item of a machine leaves the machine as it is. -/
theorem scan_passes {vm? : Option Vm} (keeps : Keeps pools [] Ψ)
    (idle : x.owner = ctx.node.id → ¬ x.Open) (h : Berthed v x vm? Ψ pools [] s)
    (scans : Run (Secluded v) job (scan ctx).run [] s result past s') :
    Berthed v x vm? Ψ pools [] s' := by
  have lodged : ∀ {past s}, Berthed v x vm? Ψ pools past s → ∃ view pools,
    Lodged v x view pools s.store :=
    fun ⟨_, _, lodged, _⟩ => ⟨_, _, lodged⟩
  exact ((scan_apart (F := fun _ => True) (sheltered_berthed rfl rfl keeps) lodged idle
    (fun _ _ => untouching_none) h).chronicle scans).1 fun _ _ => trivial

/-- Once its item is closed, scans leave the machine as it is. -/
theorem rescans_pass {vm? : Option Vm} (keeps : Keeps pools [] Ψ) (closed : ¬ x.Open)
    (h : Berthed v x vm? Ψ pools [] s) (scans : Rescans v s told s') :
    Berthed v x vm? Ψ pools [] s' := by
  have sheltered : Sheltered v x [] (Berthed v x vm? Ψ pools) := sheltered_berthed rfl rfl keeps
  induction scans with
  | rest rests => exact sheltered.alike rests h
  | next scans others ih => exact ih (scan_passes keeps (fun _ => closed) h scans)

section
variable (planned : item.plan = some p) (isOpen : item.Open)
  (state : vm.state = .running ∨ vm.state = .migrating)
  (placed : vm.host = some p.destination → vm.state = .running)
include planned isOpen state placed

/-- A scan leaves the machine and its item as they are, or it closes the item and knows where the
machine is. -/
theorem scan_rules (h : Berthed v item (some vm) (p.Backed pools) pools [] s)
    (scans : Run (Secluded v) job (scan ctx).run [] s result past s') :
    Berthed v item (some vm) (p.Backed pools) pools [] s' ∨
      ∃ now w, Whereabouts p vm.token past w ∧
        Berthed v { item with step := .done, updated := now } (some w)
          (fun _ => True) pools [] s' := by
  by_cases owner : item.owner = ctx.node.id
  · obtain ⟨finding, now, found, all, known, h⟩ :=
      ((berthed_scan (F := (· ∈ past)) stowage_backed planned
        state isOpen owner (fun _ _ => untouching_none) h).chronicle scans).1 fun _ mem => mem
    have closed : ∀ {w}, Whereabouts p vm.token past w → w = finding.settle p vm →
        finding.close item now = { item with step := .done, updated := now } →
        ∃ now w, Whereabouts p vm.token past w ∧
          Berthed v { item with step := .done, updated := now } (some w)
            (fun _ => True) pools [] s' := by
      rintro _ known rfl closes
      exact ⟨now, _, known, all, trivial, closes ▸ h⟩
    cases finding with
    | unclear => exact .inl ⟨all, known, h⟩
    | arrived =>
      refine .inr (closed ?_ rfl rfl)
      simp only [Finding.settle]
      split
      next there => exact .arrived (placed there) there
      · exact .arrived rfl rfl
    | stayed =>
      obtain ⟨e, mem, affirms⟩ := affirms_of_found found
      refine .inr (closed (.stayed ?_ mem affirms) rfl rfl)
      simp only [Finding.settle]
      split
      next here => exact here.2
      · rfl
    | stopped => exact .inr (closed (.stopped rfl) rfl rfl)
  · exact .inl (scan_passes (fun _ backed => backed.under _) (fun own => absurd own owner) h scans)

/-- However many scans there are, the first that closes the item knows where the machine is. -/
theorem rescans_rule (h : Berthed v item (some vm) (p.Backed pools) pools [] s)
    (scans : Rescans v s told s') :
    Berthed v item (some vm) (p.Backed pools) pools [] s' ∨
      ∃ now w, Whereabouts p vm.token told w ∧
        Berthed v { item with step := .done, updated := now } (some w)
          (fun _ => True) pools [] s' := by
  have sheltered : Sheltered v item [] (Berthed v item (some vm) (p.Backed pools) pools) :=
    sheltered_berthed rfl rfl fun _ backed => backed.under _
  induction scans with
  | rest rests => exact .inl (sheltered.alike rests h)
  | next scans others ih =>
    obtain h | ⟨now, w, known, h⟩ := scan_rules planned isOpen state placed h scans
    · exact (ih h).imp_right fun ⟨now, w, known, h⟩ =>
        ⟨now, w, known.mono (List.subset_append_right ..), h⟩
    · refine .inr ⟨now, w, known.mono (List.subset_append_left ..), ?_⟩
      exact rescans_pass (fun _ _ => trivial) nofun h others

end

/-- A migration that is given up after its destination was prepared has told it to clean up. -/
theorem cleaned_of_dropped {targets : List VolumeTarget}
    (dropped : Dropped p token targets (commands past)) (prepared : Prepared p r past) :
    Cleaned p r past := by
  obtain ⟨body, wait, answer, mem, ready⟩ := prepared
  generalize same : commands past = l at dropped mem
  have apart : ∀ {k : Kind} {host : HostId} {body' : k.Body} {wait' : Span}
    {b : Except Failure Answer}, k ≠ .receive →
        (Envelope.ofBody p.destination .receive body wait, answer) ≠
        (.ofBody host k body' wait', b) :=
    fun other e => other (Kind.name_injective (congrArg (·.1.kind) e)).symm
  cases dropped with
  | unprepared refused =>
    obtain rfl : answer = _ := congrArg Prod.snd (List.mem_singleton.1 mem)
    exact absurd ready (refused r)
  | @cleaned _ _ wait'' a b c r' prepared unsent =>
    rcases List.mem_cons.1 mem with e | mem
    · obtain rfl : answer = a := congrArg Prod.snd e
      cases prepared.symm.trans ready
      refine ⟨⟨token, r.ticket⟩, wait'', c, ?_, rfl⟩
      rw [same]
      exact List.mem_cons_of_mem _ (List.mem_cons_of_mem _ (List.mem_singleton_self _))
    · rcases List.mem_cons.1 mem with e | mem
      · exact absurd e (apart (by decide))
      · exact absurd (List.mem_singleton.1 mem) (apart (by decide))

/-- The destination of a migration between clusters was prepared, and wherever the process stopped,
scans have followed until the item was closed. Then the destination was told to clean up; or the
machine runs there, or is off; or a scan was told by the source that it has the machine, and has
left it there. Others leave the machine and the pools alone all the while. -/
theorem prepared_destination_is_accounted_for {request : Migration.Request} {s₀ s₁ : Shared}
    {result : Except Failure Vm} (indexed : Indexed request.vm s.store)
    (migrates : Run (Secluded request.vm) job (migrate ctx request).run [] s result past s')
    (stops : Stops past s' lived store) (began : Began item lived) (planned : item.plan = some p)
    (moves : p.MovesStorage) (across : p.crossCluster = true) (prepared : Prepared p r lived)
    (alike : store.Alike request.vm s₀.store) (scans : Rescans request.vm s₀ told s₁)
    (closed : ¬ Started item.id s₁.store) :
    Cleaned p r lived ∨ ∃ vm w, s.store.vm? request.vm = some vm ∧
      s₁.store.vm? request.vm = some w ∧ Whereabouts p vm.token told w := by
  obtain ⟨isOpen, account⟩ :=
    holds_of_stops (accounted_migrate (dawns_nil indexed) pristine_nil) migrates
    stops item p began planned moves across
  cases account with
  | unsent none =>
    obtain ⟨_, _, _, mem, -⟩ := prepared
    rw [none] at mem
    cases mem
  | givenUp dropped => exact .inl (cleaned_of_dropped dropped prepared)
  | @unfinished vm moves? view cleared underway lodged =>
    obtain ⟨vm', stored, same, adrift⟩ := underway.adrift cleared
    have placed : vm'.host = some p.destination → vm'.state = .running := by
      intro there
      obtain here | ⟨running, -⟩ := adrift.placed
      · exact absurd (Option.some.inj (here.symm.trans there)) adrift.away
      · exact running
    have berthed : Berthed request.vm item (some vm') (p.Backed s.store.pools)
      s.store.pools [] s₀ :=
      ⟨view.volumes, adrift.backed, stored ▸ lodged.alike alike, trivial⟩
    obtain ⟨_, -, h, -⟩ | ⟨now, w, known, _, -, h, -⟩ :=
      rescans_rule planned isOpen adrift.state placed berthed scans
    · exact absurd ⟨item, h.filed, isOpen⟩ closed
    · exact .inr ⟨vm, w, cleared.stored, congrArg View.vm h.view, same ▸ known⟩
  | @arrived vm w last now cleared stored state host lodged =>
    have berthed : Berthed request.vm { item with step := .done, updated := now }
      (some w) (fun _ => True)
        s.store.pools [] s₀ := ⟨last.volumes, trivial, stored ▸ lodged.alike alike, trivial⟩
    have shut : ¬ ({ item with step := .done, updated := now } : Item).Open := nofun
    obtain ⟨_, -, h, -⟩ := rescans_pass (fun _ _ => trivial) shut berthed scans
    exact .inr ⟨vm, w, cleared.stored, congrArg View.vm h.view, .arrived state host⟩

def severed : Oracle := .smooth ⟨0, 1⟩ default fun e =>
  if e.host = ⟨6⟩ then .ok (.ofReply .receive ⟨"ticket", [], []⟩)
  else .error (.agentUnavailable e.host (.noSession e.kind))

def staying : Oracle := .smooth ⟨0, 1⟩ default fun e =>
  if e.host = ⟨5⟩ then .ok (.ofReply .checkState .on) else .ok (.refusal "")

/-- The command that tells the second host to prepare for the machine, and an answer that can be
read. -/
def readies (c : Sent) : Bool :=
  c.1 = .ofBody traversed.destination .receive ⟨"i-1",
    [⟨⟨100⟩, "vol-100-path", ⟨201⟩, "/mnt/pool-201"⟩]⟩
    trial.waits.storageMigrateWait &&
  (Kind.receive.interpret traversed.destination c.2).toOption = some ⟨"ticket", [], []⟩

theorem prepared_of_readies (h : (commands past).any readies = true) :
    Prepared traversed ⟨"ticket", [], []⟩ past := by
  obtain ⟨⟨e, answer⟩, mem, ready⟩ := List.any_eq_true.1 h
  simp only [readies, Bool.and_eq_true, decide_eq_true_eq] at ready
  obtain ⟨rfl, read⟩ := ready
  refine ⟨_, _, answer, mem, ?_⟩
  generalize Kind.receive.interpret traversed.destination answer = reply at read
  cases reply with
  | error failure => cases read
  | ok r => exact congrArg Except.ok (Option.some.inj read)

/-- The machine has stayed where it was, its item is done, and nobody has told the destination to
clean up. -/
theorem forgotten_destination_is_accounted_for :
    ∃ result past s' item told s₁,
      Run (Secluded crossing.vm) 0 (migrate trial crossing).run [] ⟨twoSites, {}, []⟩ result
        past s' ∧
      Began item past ∧ Prepared traversed ⟨"ticket", [], []⟩ past ∧
      Rescans crossing.vm s' told s₁ ∧ ¬ Started item.id s₁.store ∧
      (∀ c ∈ commands (past ++ told), c.1.kind ≠ Enumeration.name Kind.cleanup) ∧
      (Cleaned traversed ⟨"ticket", [], []⟩ past ∨
        ∃ vm w, twoSites.vm? crossing.vm = some vm ∧ s₁.store.vm? crossing.vm = some w ∧
          Whereabouts traversed vm.token told w) := by
  have indexed : Indexed crossing.vm twoSites := indexed_of_idle rfl
  have ends :
    ((solo? 0 severed (migrate trial crossing).run [] ⟨twoSites, {}, []⟩).any fun ended =>
      (ended.2.1.any fun f => (opened? f).any fun item => item.plan = some traversed) &&
      (commands ended.2.1).any readies &&
      (solo? 1 staying (scan trial).run [] ended.2.2).any fun scanned =>
        scanned.2.2.store.work.rows.all (fun x => x.step = .done) &&
        (commands (ended.2.1 ++ scanned.2.1)).all fun c => c.1.kind ≠
        Enumeration.name Kind.cleanup) =
      true := by
    decide +kernel
  obtain ⟨⟨result, past, s'⟩, migrates, ends⟩ := (Option.any_eq_true ..).1 ends
  simp only [Bool.and_eq_true, List.any_eq_true (l := past)] at ends
  obtain ⟨⟨⟨f, mem, opens⟩, ready⟩, ends⟩ := ends
  obtain ⟨item, opens, planned⟩ := (Option.any_eq_true ..).1 opens
  obtain ⟨⟨result', told, s₁⟩, scanned, ends⟩ := (Option.any_eq_true ..).1 ends
  simp only [Bool.and_eq_true, List.all_eq_true, decide_eq_true_eq] at ends planned
  obtain ⟨closed, silent⟩ := ends
  have run : Run (Secluded crossing.vm) 0 (migrate trial crossing).run []
    ⟨twoSites, {}, []⟩ result past s' :=
    run_of_solo? (fun _ => .refl _ _) migrates
  have scans : Rescans crossing.vm s' (told ++ []) s₁ :=
    .next (run_of_solo? (fun _ => .refl _ _) scanned) (.rest (.refl _ _))
  rw [List.append_nil] at scans
  have shut : ¬ Started item.id s₁.store := by
    rintro ⟨x, stored, isOpen⟩
    have done := closed x (Table.mem_of_get? stored)
    rw [Item.Open, done] at isOpen
    cases isOpen
  have began := began_of_opened? mem opens
  have prepared := prepared_of_readies ready
  exact ⟨result, past, s', item, told, s₁, run, began, prepared, scans, shut, silent,
    prepared_destination_is_accounted_for indexed run .ended began planned (by decide)
      rfl prepared (.refl _ _) scans shut⟩

end ControlPlane.Concurrent
