import ControlPlane.Proofs.Recovery.BrokenMigration

/-!
# An operation and a scan decide alike

When the answer to a migration is lost, the operation asks the hosts where the machine is. Should
the process have stopped instead, then a recovery scan asks them. Where both hosts tell the same to
both, the operation and the scan leave the machine in the same place, but for a machine without
volumes that both hosts claim to run: of that the operation believes the destination, and the scan
the source.
-/

namespace ControlPlane

def Plan.command (p : Plan) : Agent.Kind := if p.MovesStorage then .migrateWithStorage else .migrate

theorem Vm.eq_of_bare {w w' : Vm} (same : w'.bare = w.bare) (state : w'.state = w.state)
    (host : w'.host = w.host) (lastHost : w'.lastHost = w.lastHost) :
    w' = { w with version := w'.version } :=
  calc w' = { w'.bare with
          state := w'.state, host := w'.host, lastHost := w'.lastHost, version := w'.version } :=
          rfl
    _ = { w.bare with
          state := w.state, host := w.host, lastHost := w.lastHost, version := w'.version } := by
        rw [same, state, host, lastHost]
    _ = { w with version := w'.version } := rfl

namespace Volume
variable {volume : Volume} {pools : Table Pool} {moves moves' : List VolumeMove} {plan : Plan}

/-- Moves of one plan that leave paths as they are do the same. -/
theorem under_of_plain (h : plan.Moves moves) (h' : plan.Moves moves')
    (plain : ∀ move ∈ moves, move.path = none)
    (plain' : ∀ move ∈ moves', move.path = none) :
    volume.under pools moves = volume.under pools moves' := by
  have path : (volume.under pools moves).path = (volume.under pools moves').path :=
    (path_under plain).trans (path_under plain').symm
  calc volume.under pools moves
      = { (volume.under pools moves).bare with path := (volume.under pools moves).path } := rfl
    _ = { (volume.under pools moves').bare with path := (volume.under pools moves').path } := by
        rw [bare_under h h', path]
    _ = volume.under pools moves' := rfl

end Volume

namespace Concurrent
open Work Control Operation Procedure Migration
open Recovery (known? scan)

variable {v : VmId} {job : Nat} {s s' : Shared} {past : List Exchange} {item : Item}
  {view first last : View} {pools : Table Pool} {ctx : Context} {vm : Vm} {p : Plan}
  {F : Exchange → Prop} {source destination : Option PowerState} {C : Contract} {R : Assertion}
  {moves? : Option (List VolumeMove)}

/-- The answer to a command of a kind was lost: it may or may not have taken effect. -/
def loses (k : Agent.Kind) : Exchange → Bool
  | ⟨.send e, .ok _, _⟩ => e.kind ≠ Enumeration.name k
  | ⟨.send e, .error failure, _⟩ => e.kind ≠ Enumeration.name k || failure.kind.Ambiguous
  | _ => true

/-- Whenever the hosts of a plan are asked for a machine they say the same, and its lock can be
had. -/
def reports (ctx : Context) (v : VmId) (p : Plan) (token : String)
    (source destination : Option PowerState) :
    Exchange → Bool
  | ⟨.lock name, granted, _⟩ => name ≠ lockName ctx.node v || granted
  | ⟨.send e, answer, _⟩ =>
    (e ≠ Agent.probe p.source token ctx.probeWait ||
      known? (Agent.powerOf p.source answer) = source) &&
      (e ≠ Agent.probe p.destination token ctx.probeWait ||
        known? (Agent.powerOf p.destination answer) = destination)
  | ⟨.sendBoth e e', answers, _⟩ =>
    e ≠ Agent.probe p.source token ctx.probeWait || e' ≠
      Agent.probe p.destination token ctx.probeWait ||
      known? (Agent.powerOf p.source answers.1) = source &&
        known? (Agent.powerOf p.destination answers.2) = destination
  | _ => true

theorem powers_of_reports {token : String} {before : Store}
    {answers : Except Failure Agent.Answer × Except Failure Agent.Answer}
    (h : reports ctx v p token source destination
      ⟨.sendBoth (Agent.probe p.source token ctx.probeWait)
        (Agent.probe p.destination token ctx.probeWait), answers, before⟩) :
    known? (Agent.powerOf p.source answers.1) = source ∧
      known? (Agent.powerOf p.destination answers.2) = destination := by
  simpa only [reports, ne_eq, not_true_eq_false, decide_false, Bool.false_or, Bool.and_eq_true,
    decide_eq_true_eq] using h

theorem power_of_reports {token : String} {e : Agent.Envelope}
    {answer : Except Failure Agent.Answer} {before : Store}
    (h : reports ctx v p token source destination ⟨.send e, answer, before⟩) :
    (e = Agent.probe p.source token ctx.probeWait →
      known? (Agent.powerOf p.source answer) = source) ∧
      (e = Agent.probe p.destination token ctx.probeWait →
        known? (Agent.powerOf p.destination answer) = destination) := by
  simpa only [reports, ne_eq, decide_not, Bool.and_eq_true, Bool.or_eq_true, Bool.not_eq_true',
    decide_eq_false_iff_not, decide_eq_true_eq, ← imp_iff_not_or] using h

theorem Safe.hears {r : Control.Request} (quiet : r.Quiet) (lasting : Lasting C Request.Quiet R)
    (h : R past s) :
    Safe C (fun reply => Given F fun past s => (∃ before, F ⟨r, reply, before⟩) ∧ R past s)
      (Program.call (I := surroundings) r) past s := by
  refine Safe.call lasting.stable (fun _ => enter_of_quiet quiet) h fun s h inv =>
    ⟨lasting.fit quiet h inv, fun reply s' answers => ?_⟩
  rw [eq_of_answers quiet answers]
  refine ⟨C.allow_refl inv, fun all => ⟨⟨s.store, ?_⟩, lasting.keeps quiet h⟩⟩
  exact all _ (List.mem_append_right _ (List.mem_singleton_self _))

def Sited (source destination : Option PowerState) : Landing → Prop
  | .moved => destination = some .on
  | .notMoved _ => source = some .on ∧ destination ≠ some .on
  | .unknown _ => True

section
variable (lasting : Lasting C Request.Quiet R) (lenient : Lenient C F)
  (told : ∀ e, F e → reports ctx v p vm.token source destination e)
include lasting told

omit told in
theorem hears_power {host : HostId} {power : Option PowerState} (agrees : ∀ answer before,
      F ⟨.send (Agent.probe host vm.token ctx.probeWait), answer, before⟩ →
        known? (Agent.powerOf host answer) = power) (h : R past s) :
    Safe C (fun found => Given F fun past s => known? found = power ∧ R past s)
      (Agent.powerState host vm.token ctx.probeWait) past s := by
  refine Safe.then (Safe.hears (F := F) trivial lasting h) fun answer past s h all => ?_
  obtain ⟨⟨before, f⟩, kept⟩ := h all
  exact ⟨agrees answer before f, kept⟩

theorem hears_both (h : R past s) :
    Safe C
      (fun powers => Given F fun past s => known? powers.1 = source ∧
        known? powers.2 = destination ∧ R past s)
          (Agent.powerStates p.source p.destination vm.token ctx.probeWait) past s := by
  refine Safe.then (Safe.hears (F := F) trivial lasting h) fun answers past s h all => ?_
  obtain ⟨⟨before, f⟩, kept⟩ := h all
  obtain ⟨here, there⟩ := powers_of_reports (told _ f)
  exact ⟨here, there, kept⟩

omit told in
theorem lost_dispatch {k : Agent.Kind} {host : HostId} {body : k.Body} {wait : Span}
    (lost : ∀ e, F e → loses k e) (h : R past s) :
    Safe C (fun result => Given F fun past s =>
        (∃ failure, result = .error failure ∧ failure.kind.Ambiguous) ∧ R past s)
      (Agent.dispatch host k body wait).run past s := by
  refine Safe.then (Safe.hears (F := F) trivial lasting h) fun answer past s h all => ?_
  obtain ⟨⟨before, f⟩, kept⟩ := h all
  have gone := lost _ f
  cases answer with
  | ok answer => exact absurd rfl (of_decide_eq_true gone)
  | error failure =>
    exact ⟨⟨failure, rfl, by simpa [loses, Agent.Envelope.ofBody] using gone⟩, kept⟩

include lenient

theorem told_locate {lost : Failure} (h : R past s) :
    Safe C (fun landing => Given F fun past s => Sited source destination landing ∧ R past s)
      (locate ctx vm p lost) past s := by
  refine Safe.then (hears_power lasting (fun _ _ f => (power_of_reports (told _ f)).2 rfl) h)
    fun power past s h => Safe.given lenient h fun ⟨there, kept⟩ => ?_
  rcases power with failure | _ | _ | _
  case ok.on => exact fun _ => ⟨there.symm, kept⟩
  -- Unless the destination has the machine on, the source is asked.
  all_goals
    refine Safe.then (hears_power lasting (fun _ _ f => (power_of_reports (told _ f)).1 rfl) kept)
      fun power past s h => Safe.given lenient h fun ⟨here, kept⟩ => ?_
    rcases power with failure | _ | _ | _
    case ok.on => exact fun _ => ⟨⟨here.symm, there ▸ nofun⟩, kept⟩
    all_goals exact fun _ => ⟨trivial, kept⟩

theorem told_sendAway (lost : ∀ e, F e → loses .migrate e) (h : R past s) :
    Safe C (fun landing => Given F fun past s => Sited source destination landing ∧ R past s)
      (sendAway ctx vm p) past s := by
  refine Safe.then (lost_dispatch lasting lost h) fun result past s h =>
    Safe.given lenient h fun ⟨⟨failure, e, ambiguous⟩, kept⟩ => ?_
  cases e
  simp only [if_pos ambiguous]
  exact told_locate lasting lenient told kept

end

/-- How a migration ends whose command was lost, and what it leaves of the machine. -/
inductive Decides (p : Plan) (first : View) (pools : Table Pool)
    (source destination : Option PowerState) :
    Except Ending Vm → View → Prop
  | moved {vm w : Vm} {moves : List VolumeMove} {last : View} (cleared : Cleared p first pools vm)
      (same : w.bare = vm.bare) (plain : ∀ move ∈ moves, move.path = none)
      (moored : Moored p first pools moves w last) (on : destination = some .on)
      (off : p.MovesStorage → source = some .off) : Decides p first pools source
      destination (.ok w) last
  | stayed {vm : Vm} {failure : Failure} (cleared : Cleared p first pools vm)
      (on : source = some .on) (off : ¬ p.MovesStorage → destination ≠ some .on) :
      Decides p first pools source destination (.error (.failed failure)) first
  | rejected {failure : Failure} {last : View} :
      Decides p first pools source destination (.error (.rejected failure)) last
  | unresolved {failure : Failure} {last : View} :
      Decides p first pools source destination (.error (.unresolved failure)) last

def Decided (v : VmId) (p : Plan) (first : View) (pools : Table Pool)
    (source destination : Option PowerState) (ending : Except Ending Vm) : Assertion := fun _ s =>
  Decides p first pools source destination ending (s.store.view v)

theorem sails_lasting : Lasting (resting v job) Request.Quiet (Sails v item first pools none) :=
  lasting_lodges unmoved_chronicled fun _ => trivial

section
variable (cleared : Cleared p first pools vm)
include cleared

theorem decided_record {moves : List VolumeMove} (moved : p.Moves moves)
    (plain : ∀ move ∈ moves, move.path = none) (on : destination = some .on)
    (off : p.MovesStorage → source = some .off) (h : Sails v item first pools none past s) :
    Safe (resting v job) (Decided v p first pools source destination)
      ((record vm p moves).adapt .unresolved : Body Vm).run past s := by
  refine Safe.adapt ((charted_record (fun _ _ => trivial) cleared moved h).mono ?_)
  rintro _ past s ⟨w, moves?, last, rfl, same, rfl, moored, -, h⟩
  have here : s.store.view v = last := h.1.view
  rw [Decided, here]
  exact .moved cleared same plain moored on off

variable (told : ∀ e, F e → reports ctx v p vm.token source destination e)
include told

theorem decided_compute (plain : ¬ p.MovesStorage) (lost : ∀ e, F e → loses .migrate e)
    (h : Sails v item first pools none past s) :
    Safe (resting v job) (fun ending => Given F (Decided v p first pools source destination ending))
      (compute ctx vm p).run past s := by
  refine Safe.ofProgram (told_sendAway sails_lasting lenient_resting told lost h)
    fun landing past s h =>
    Safe.given lenient_resting h fun ⟨sited, kept⟩ => ?_
  have none : p.Moves [] := (Decidable.not_not.1 plain).symm
  cases landing with
  | moved =>
    exact (decided_record cleared none (fun _ mem => absurd mem List.not_mem_nil) sited
      (fun moves => absurd moves plain) kept).mono fun _ _ _ decided _ => decided
  | notMoved failure =>
    have here : s.store.view v = first := kept.1.view
    intro _
    rw [Decided, here]
    exact .stayed cleared sited.1 fun _ => sited.2
  | unknown failure => exact fun _ => .unresolved

variable {targets : List Agent.VolumeTarget} (moves : p.MovesStorage)
  (laden : targets.map Agent.VolumeTarget.relocation = p.volumes.rows)
include moves laden

theorem decided_locateWithStorage {lost : Failure} (h : Sails v item first pools none past s) :
    Safe (resting v job) (fun ending => Given F (Decided v p first pools source destination ending))
      (locateWithStorage ctx vm p targets lost).run past s := by
  refine Safe.ofProgram (hears_both sails_lasting told h) fun powers past s h =>
    Safe.given lenient_resting h fun ⟨here, there, kept⟩ => ?_
  split
  · refine (decided_record cleared ((movesOf_relocation targets).trans laden) ?_ there.symm
      (fun _ => here.symm) kept).mono fun _ _ _ decided _ => decided
    intro move mem
    obtain ⟨target, -, rfl⟩ := List.mem_map.1 mem
    rfl
  · have view : s.store.view v = first := kept.1.view
    intro _
    rw [Decided, view]
    exact .stayed cleared here.symm fun no => absurd moves no
  · exact fun _ => .unresolved

theorem decided_withinCluster (lost : ∀ e, F e → loses .migrateWithStorage e)
    (h : Sails v item first pools none past s) :
    Safe (resting v job) (fun ending => Given F (Decided v p first pools source destination ending))
      (withinCluster ctx vm p targets).run past s := by
  refine Safe.ofProgram (lost_dispatch sails_lasting lost h) fun result past s h =>
    Safe.given lenient_resting h fun ⟨⟨failure, e, ambiguous⟩, kept⟩ => ?_
  cases e
  simp only [if_pos ambiguous]
  exact decided_locateWithStorage cleared told moves laden kept

end

/-- A migration within a cluster whose command is lost decides by what the hosts say. -/
theorem decided_migrateBody (subject : p.vm = v)
    (within : p.MovesStorage → p.crossCluster = false) (lost : ∀ e, F e → loses p.command e)
    (told : ∀ vm, first.vm = some vm → ∀ e, F e →
      reports ctx v p vm.token source destination e)
    (h : Sails v item first pools none past s) :
    Safe (resting v job) (fun ending => Given F (Decided v p first pools source destination ending))
      (migrateBody ctx p).run past s := by
  refine Safe.adapted (safe_cleared sails_lasting.silent (fun h => h.1.pools) subject
    (fun h => h.1.view) h) ?_ fun _ _ _ _ _ => .rejected
  rintro ⟨vm, targets⟩ past s ⟨h, checked⟩
  obtain ⟨cleared, laden⟩ := checked _ rfl
  have told := told vm cleared.stored
  simp only
  split
  next plain =>
    rw [Plan.command, if_neg plain] at lost
    exact decided_compute cleared told plain lost h
  next moves =>
    have moves := Decidable.not_not.1 moves
    rw [Plan.command, if_pos moves] at lost
    rw [within moves]
    exact decided_withinCluster cleared told moves laden lost h

/-- The command of a migration was lost, and hosts say the same of its machine throughout. -/
def Attests (ctx : Context) (v : VmId) (first : View) (p : Plan)
    (source destination : Option PowerState) (e : Exchange) : Prop :=
  loses p.command e ∧ ∀ vm, first.vm = some vm → reports ctx v p vm.token source destination e

/-- A migration has ruled where its machine is, and has left its item accordingly. -/
structure Ruled (ctx : Context) (v : VmId) (first : View) (pools : Table Pool)
    (source destination : Option PowerState) (item : Item) (p : Plan) (ending : Except Ending Vm)
    (last : View) (past : List Exchange) (s : Shared) : Prop where
  planned : item.plan = some p
  sole : ∀ {other}, Began other past → other = item
  lodged : ∃ now, Lodged v (leaves item now ending) last pools s.store
  decides : (p.MovesStorage → p.crossCluster = false) →
    (∀ e ∈ past, Attests ctx v first p source destination e) →
      Decides p first pools source destination ending last

theorem ruled_migrateBody (source destination : Option PowerState) (subject : p.vm = v)
    (h : Sails v item first pools none past s) :
    Safe (resting v job)
      (fun ending past s => ∃ moves? last, Sails v item last pools moves? past s ∧
        ((p.MovesStorage → p.crossCluster = false) →
          Given (Attests ctx v first p source destination)
            (fun _ _ => Decides p first pools source destination ending last) past s))
      (migrateBody ctx p).run past s := by
  have sails : Safe (resting v job)
    (Ends (Arrived v item first p pools) (Afloat v item first p pools))
      (migrateBody ctx p).run past s := charted_migrateBody (fun _ _ => trivial) subject h
  by_cases within : p.MovesStorage → p.crossCluster = false
  · have decided : Safe (resting v job)
      (fun ending => Given (Attests ctx v first p source destination)
        (Decided v p first pools source destination ending)) (migrateBody ctx p).run past s :=
      decided_migrateBody subject within (fun _ f => f.1) (fun vm stored _ f => f.2 vm stored) h
    refine (sails.both decided).mono ?_
    rintro ending past s ⟨ends, decided⟩
    obtain ⟨moves?, last, h⟩ := sails_of_ends ends
    have here : s.store.view v = last := h.1.view
    exact ⟨moves?, last, h, fun _ all => here ▸ decided all⟩
  · refine sails.mono fun ending past s ends => ?_
    obtain ⟨moves?, last, h⟩ := sails_of_ends ends
    exact ⟨moves?, last, h, fun no => absurd no within⟩

theorem ruled_migrate (ctx : Context) (source destination : Option PowerState)
    {request : Migration.Request} (h : Dawns request.vm first pools past s) :
    Safe (resting request.vm job)
      (fun _ past s => (∀ item, ¬ Began item past) ∨ ∃ item p ending last,
        Ruled ctx request.vm first pools source destination item p ending last past s)
      (migrate ctx request).run past s := by
  refine Safe.andThen (safe_plan (lasting_dawns fun _ => trivial) h) ?_
    fun _ _ _ h => .inl h.1.began
  intro p past s h
  obtain ⟨h, planned⟩ := h
  obtain ⟨subject, -, -⟩ := planned p rfl
  refine Safe.andThen ((heralded_dawns fun _ => trivial).start h) ?_ fun _ _ _ h => .inl h.began
  rintro item past s ⟨ticket, h⟩
  refine Safe.ofProgram (ruled_migrateBody source destination subject h) ?_
  rintro ending past s ⟨moves?, last, h, decides⟩
  have settles : Safe (resting request.vm job) (fun _ past s => Chronicled item moves? past ∧
      ∃ now, Lodged request.vm (leaves item now ending) last pools s.store)
      (settle ctx item ending).run past s :=
    (lodges_settle unmoved_chronicled.calm (fun _ => trivial) (fun _ => trivial) h).mono
      fun _ _ _ ⟨_, now, lodged, chronicled⟩ => ⟨chronicled, now, lodged⟩
  -- What was decided stays decided while the item is closed.
  by_cases within : p.MovesStorage → p.crossCluster = false
  · have kept : Safe (resting request.vm job) (fun _ =>
        Given (Attests ctx request.vm first p source destination) fun _ _ =>
          Decides p first pools source destination ending last)
            (settle ctx item ending).run past s :=
      Safe.given lenient_resting (decides within) fun decided =>
        settles.mono fun _ _ _ _ _ => decided
    refine (settles.both kept).mono ?_
    rintro _ past s ⟨⟨chronicled, lodged⟩, decided⟩
    exact .inr ⟨item, p, ending, last, ticket.plan, chronicled.sole, lodged, fun _ => decided⟩
  · refine settles.mono ?_
    rintro _ past s ⟨chronicled, lodged⟩
    exact .inr ⟨item, p, ending, last, ticket.plan, chronicled.sole, lodged,
      fun no => absurd no within⟩

theorem found_of_reports {token : String} {finding : Finding}
    (told : ∀ e, F e → reports ctx v p token source destination e)
    (found : Found F ctx v p token finding) :
    finding = .of source destination ∧ source ≠ some .unknown := by
  cases found with
  | refused f => simpa [reports] using told _ f
  | heard f heard =>
    obtain ⟨answers, before⟩ := heard
    obtain ⟨here, there⟩ := powers_of_reports (told _ f)
    refine ⟨by rw [here, there], ?_⟩
    rw [← here]
    rcases Agent.powerOf p.source answers.1 with _ | _ | _ | _ <;> nofun

theorem Cleared.adrift (cleared : Cleared p first pools vm) : Adrift p pools vm first.volumes :=
  ⟨.inl cleared.movable.running, .inl cleared.movable.host,
    cleared.movable.away, cleared.backed⟩

theorem Cleared.elsewhere (cleared : Cleared p first pools vm) :
    ¬ vm.host = some p.destination := by
  rw [cleared.movable.host]
  exact fun same => cleared.movable.away (Option.some.inj same)

theorem stowage_plain (plain : ¬ p.MovesStorage) :
    Stowage p pools vm [] (fun _ => True) fun _ => True where
  backed _ _ mem := absurd (List.ne_nil_of_mem mem) plain
  before _ _ := trivial
  after _ _ := trivial
  arrives _ := trivial
  arrived _ _ := trivial

/-- What a scan makes of a machine that a migration has left as it was, by what the hosts say. -/
theorem scan_follows {volumes : List Volume} {Ψ Ψ' : List Volume → Prop}
    {result : Except Failure Recovery.Report} (stowage : Stowage p pools vm volumes Ψ Ψ')
    (known : Ψ first.volumes) (cleared : Cleared p first pools vm)
    (lodged : Lodged v item first pools s.store) (planned : item.plan = some p) (isOpen : item.Open)
    (owner : item.owner = ctx.node.id)
    (scans : Run (Secluded v) job (scan ctx).run [] s result past s')
    (told : ∀ e ∈ past, reports ctx v p vm.token source destination e)
    (spares : ∀ e ∈ past, Untouching v ctx.node.id volumes e) :
    source ≠ some .unknown ∧ ∃ now all, (Finding.of source destination).stows Ψ Ψ' all ∧
      Lodged v ((Finding.of source destination).close item now)
        ⟨some ((Finding.of source destination).settle p vm), all⟩ pools s'.store := by
  have berthed : Berthed v item (some vm) Ψ pools [] s :=
    ⟨first.volumes, known, cleared.stored ▸ lodged, trivial⟩
  obtain ⟨finding, now, found, all, known, lodged, -⟩ :=
    ((berthed_scan (F := (· ∈ past)) stowage planned
      (.inl cleared.movable.running) isOpen owner spares berthed).chronicle scans).1
      fun _ mem => mem
  obtain ⟨rfl, knows⟩ := found_of_reports told found
  exact ⟨knows, now, all, known, lodged⟩

/-- A migration whose hosts answer in one way throughout, cut at an exchange, and a scan from what
the store has become by then. -/
def rehearses (oracle : Oracle) (store : Store) (request : Migration.Request) (p : Plan)
    (source destination : Option PowerState) (n : Nat) (since : Store → Store)
    (also : Store → Store → List Exchange → Store → Bool) : Bool :=
  store.work.rows = [] &&
  (solo? 0 oracle (migrate trial request).run [] ⟨store, {}, []⟩).any fun (_, past, s') =>
    ((store.vm? request.vm).all fun vm => past.all fun f =>
      loses p.command f && reports trial request.vm p vm.token source destination f) &&
    s'.store.work.rows.all (fun x => x.step = .done ∨ x.step = .error) &&
    (cut? n past).any fun (before, e, _) =>
      before.all (fun f => ¬ f.request.Rewrites) &&
      before.any (fun f => (opened? f).any fun item => item.plan = some p &&
        (e.before.item? item.id).any (·.Open) && (s'.store.item? item.id).isSome) &&
      (solo? 1 oracle (scan trial).run [] ⟨since e.before, {}, []⟩).any fun (_, past, s₁) =>
        ((store.vm? request.vm).all fun vm =>
          past.all (reports trial request.vm p vm.token source destination)) &&
        also e.before s'.store past s₁.store

theorem rehearsal {oracle : Oracle} {store : Store} {request : Migration.Request} {n : Nat}
    {since : Store → Store} {also : Store → Store → List Exchange → Store → Bool}
    (h : rehearses oracle store request p source destination n since also = true)
    (known : ∃ vm, store.vm? request.vm = some vm) :
    ∃ result before e after s' item result' past s₁, Indexed request.vm store ∧
      Run (Secluded request.vm) 0 (migrate trial request).run [] ⟨store, {}, []⟩ result
        (before ++ e :: after) s' ∧
      Began item before ∧ Started item.id e.before ∧ Unwritten before ∧ item.plan = some p ∧
      (∀ f ∈ before ++ e :: after, loses p.command f) ∧
      (∀ vm, store.vm? request.vm = some vm → ∀ f ∈ before ++ e :: after,
        reports trial request.vm p vm.token source destination f) ∧
      (∃ x, s'.store.item? item.id = some x ∧ (x.step = .done ∨ x.step = .error)) ∧
      Run (Secluded request.vm) 1 (scan trial).run [] ⟨since e.before, {}, []⟩
        result' past s₁ ∧
      (∀ vm, store.vm? request.vm = some vm → ∀ f ∈ past,
        reports trial request.vm p vm.token source destination f) ∧
      also e.before s'.store past s₁.store = true := by
  simp only [rehearses, Bool.and_eq_true, decide_eq_true_eq] at h
  obtain ⟨idle, h⟩ := h
  obtain ⟨⟨result, past, s'⟩, migrates, h⟩ := (Option.any_eq_true ..).1 h
  simp only [Bool.and_eq_true, List.all_eq_true, decide_eq_true_eq] at h
  obtain ⟨⟨told, closed⟩, h⟩ := h
  obtain ⟨⟨before, e, after⟩, split, h⟩ := (Option.any_eq_true ..).1 h
  simp only [Bool.and_eq_true, List.all_eq_true, List.any_eq_true, decide_eq_true_eq] at h
  obtain ⟨⟨unwritten, f, mem, opens⟩, h⟩ := h
  obtain ⟨item, opens, opened⟩ := (Option.any_eq_true ..).1 opens
  simp only [Bool.and_eq_true, decide_eq_true_eq] at opened
  obtain ⟨⟨planned, isOpen⟩, ended⟩ := opened
  obtain ⟨x, stored, isOpen⟩ := (Option.any_eq_true ..).1 isOpen
  obtain ⟨y, ended⟩ := Option.isSome_iff_exists.1 ended
  obtain ⟨⟨result', past', s₁⟩, scans, heard⟩ := (Option.any_eq_true ..).1 h
  simp only [Bool.and_eq_true] at heard
  obtain rfl := eq_of_cut? split
  have told : ∀ vm, store.vm? request.vm = some vm → ∀ f ∈ before ++ e :: after,
      loses p.command f = true ∧
      reports trial request.vm p vm.token source destination f = true :=
    fun vm stored f mem => Bool.and_eq_true_iff.1
      (List.all_eq_true.1 ((Option.all_eq_true ..).1 told vm stored) f mem)
  obtain ⟨vm, known⟩ := known
  refine ⟨result, before, e, after, s', item, result', past', s₁, indexed_of_idle idle,
    run_of_solo? (fun _ => .refl _ _) migrates, began_of_opened? mem opens,
    ⟨x, stored, of_decide_eq_true isOpen⟩, unwritten, planned,
    fun f mem => (told vm known f mem).1, fun vm stored f mem => (told vm stored f mem).2,
    ⟨y, ended, closed y (Table.mem_of_get? ended)⟩, run_of_solo? (fun _ => .refl _ _) scans,
    fun vm stored f mem => ?_, heard.2⟩
  exact List.all_eq_true.1 ((Option.all_eq_true ..).1 heard.1 vm stored) f mem

section
variable {request : Migration.Request} {k : Nat} {s₀ s₁ : Shared} {before after : List Exchange}
  {e : Exchange} {ctx' : Context} {result : Except Failure Vm}
  {result' : Except Failure Recovery.Report} (indexed : Indexed request.vm s.store)
  (migrates : Run (Secluded request.vm) job (migrate ctx request).run [] s result
    (before ++ e :: after) s')
  (began : Began item before) (isOpen : Started item.id e.before) (unwritten : Unwritten before)
  (planned : item.plan = some p) (lost : ∀ f ∈ before ++ e :: after, loses p.command f)
  (told : ∀ vm, s.store.vm? request.vm = some vm → ∀ f ∈ before ++ e :: after,
    reports ctx request.vm p vm.token source destination f)
  (decided : ∃ x, s'.store.item? item.id = some x ∧ (x.step = .done ∨ x.step = .error))
  (stops : e.before.Alike request.vm s₀.store) (node : ctx'.node.id = ctx.node.id)
  (scans : Run (Secluded request.vm) k (scan ctx').run [] s₀ result' past s₁)
  (told' : ∀ vm, s.store.vm? request.vm = some vm → ∀ f ∈ past,
    reports ctx' request.vm p vm.token source destination f)
include indexed migrates began isOpen unwritten planned lost told decided stops node in
/-- The migration has decided where its machine is, and where the process might have stopped nothing
has been written yet. -/
theorem decides_from_point (within : p.MovesStorage → p.crossCluster = false) :
    ∃ ending last now, Decides p (s.store.view request.vm) s.store.pools source destination ending
      last ∧
      ((leaves item now ending).step ≠ .started ∧
        (leaves item now ending).step ≠ .cancelled) ∧
      Lodged request.vm (leaves item now ending) last s.store.pools s'.store ∧
      Lodged request.vm item (s.store.view request.vm) s.store.pools s₀.store ∧ item.Open ∧
      item.owner = ctx'.node.id := by
  have dawns := dawns_nil indexed
  obtain ⟨-, view, -, owner, -, lodged⟩ :=
    ((charted_migrate dawns).chronicle migrates).2 before e after
      rfl (Nat.zero_le _) item began isOpen
  have untouched :=
    ((Safe.untouched (C := secluded request.vm job (Untouched request.vm (s.store.view
      request.vm))) (fun rely => rely.view) trivial (fun h => h) fun _ => rfl).chronicle
        migrates).2 before e
    after rfl (Nat.zero_le _) unwritten
  obtain rfl : view = s.store.view request.vm := lodged.view.symm.trans untouched
  have open' := lodged.open_of_started isOpen
  have whole : Began item (before ++ e :: after) := began.before
  obtain none | ⟨item', p', ending, last, ruled⟩ :=
    ((ruled_migrate ctx source destination dawns).chronicle migrates).1
  · exact absurd whole (none item)
  obtain rfl := ruled.sole whole
  cases planned.symm.trans ruled.planned
  obtain ⟨now, ended⟩ := ruled.lodged
  obtain ⟨x, stored, decided⟩ := decided
  have filed := ended.filed
  rw [leaves_id, stored] at filed
  cases filed
  refine ⟨ending, last, now,
    ruled.decides within fun f mem => ⟨lost f mem, fun vm here => told vm here f mem⟩, ?_,
    ended, lodged.alike stops, open', owner.trans node.symm⟩
  rcases decided with step | step <;> rw [step] <;> exact ⟨nofun, nofun⟩

include indexed migrates began isOpen unwritten planned lost told decided stops node scans told' in
/-- The answer to a migration without volumes was lost, and the operation has decided by what the
hosts say where the machine is. Suppose that the process had stopped before anything was written,
and that a scan hears the same. The scan leaves the machine in the same state on the same host,
unless both hosts have it on: then the migration believes the destination, and the scan the source.
Others leave the machine and the pools alone all the while. -/
theorem lost_migration_is_rescanned_iff (plain : ¬ p.MovesStorage) :
    ∃ w w', s'.store.vm? request.vm = some w ∧ s₁.store.vm? request.vm = some w' ∧
      (w'.state = w.state ∧ w'.host = w.host ↔
        ¬ (source = some .on ∧ destination = some .on)) := by
  obtain ⟨ending, last, now, decides, ⟨closed, sent⟩, ended, lodged, isOpen, owner⟩ :=
    decides_from_point indexed migrates began isOpen unwritten planned lost told decided stops node
      fun moves => absurd moves plain
  have inline : s'.store.vm? request.vm = last.vm := congrArg View.vm ended.view
  cases decides with
  | rejected => exact absurd rfl sent
  | unresolved => exact absurd isOpen closed
  | @moved vm w moves last cleared same pathless moored on off =>
    obtain ⟨knows, now', all, -, followed⟩ :=
      scan_follows (stowage_plain plain) trivial cleared lodged
      planned isOpen owner scans (told' vm cleared.stored) fun _ _ => untouching_none
    have rescanned := congrArg View.vm followed.view
    refine ⟨w, _, inline.trans moored.stored, rescanned, ?_⟩
    have elsewhere : ¬ vm.host = some p.destination := cleared.elsewhere
    rw [moored.state, moored.host, on]
    rcases source with _ | _ | _ | _
    case none => simp [Finding.of, Finding.settle, if_neg elsewhere, Vm.put]
    case some.off => simp [Finding.of, Finding.settle, if_neg elsewhere, Vm.put]
    case some.on =>
      simp [Finding.of, Finding.settle, cleared.movable.running, cleared.movable.host,
        cleared.movable.away]
    case some.unknown => exact absurd rfl knows
  | @stayed vm failure cleared on off =>
    obtain ⟨-, now', all, -, followed⟩ :=
      scan_follows (stowage_plain plain) trivial cleared lodged planned
      isOpen owner scans (told' vm cleared.stored) fun _ _ => untouching_none
    have rescanned := congrArg View.vm followed.view
    refine ⟨vm, _, inline.trans cleared.stored, rescanned, ?_⟩
    have off := off plain
    rw [on]
    simp [Finding.of, Finding.settle, cleared.movable.running, cleared.movable.host, off]

def lightly : Migration.Request := ⟨⟨1⟩, ⟨5⟩, ⟨6⟩, .ofList []⟩

def light : Plan := ⟨⟨1⟩, ⟨5⟩, ⟨6⟩, .ofList [], false⟩

def torn : Oracle := .smooth ⟨0, 1⟩ default fun e =>
  if e.kind = Enumeration.name Agent.Kind.checkState then .ok (.ofReply .checkState .on)
  else .error (.agentUnavailable e.host (.noSession e.kind))

/-- Both hosts claim to run the machine, and the migration and the scan do not agree. -/
theorem torn_machine_is_rescanned :
    ∃ w w' before e after s' item past s₁ result result',
      Run (Secluded lightly.vm) 0 (migrate trial lightly).run [] ⟨onFirst, {}, []⟩ result
        (before ++ e :: after) s' ∧ Began item before ∧
      Run (Secluded lightly.vm) 1 (scan trial).run [] ⟨e.before, {}, []⟩ result' past s₁ ∧
      s'.store.vm? lightly.vm = some w ∧ s₁.store.vm? lightly.vm = some w' ∧
      ¬ (w'.state = w.state ∧ w'.host = w.host) := by
  have rehearsed : rehearses torn onFirst lightly light (some .on) (some .on) 14 id
      (fun _ _ _ _ => true) = true := by
    decide +kernel
  obtain ⟨result, before, e, after, s', item, result', past, s₁, indexed, migrates,
    began, isOpen, unwritten,
    planned, lost, told, decided, scans, told', -⟩ := rehearsal rehearsed ⟨_, rfl⟩
  obtain ⟨w, w', here, there, iff⟩ :=
    lost_migration_is_rescanned_iff indexed migrates began isOpen unwritten
    planned lost told decided (.refl _ _) rfl scans told' (by decide)
  exact ⟨w, w', before, e, after, s', item, past, s₁, result, result', migrates,
    began, scans, here, there, fun same => iff.1 same ⟨rfl, rfl⟩⟩

include indexed migrates began isOpen unwritten planned lost told decided stops node scans told' in
/-- The answer to a migration with volumes inside a cluster was lost, and the operation has decided
by what the hosts say where the machine is. Suppose that the process had stopped before anything was
written, and that a scan hears the same. The scan leaves the machine as the migration does, but for
the number of its transitions, and each of its volumes as well; it closes the item as done, whatever
the migration calls it. Others leave the machine and the pools alone all the while, and the plans of
other machines say nothing of its volumes. -/
theorem lost_storage_migration_is_rescanned (moves : p.MovesStorage)
    (within : p.crossCluster = false)
    (spares : ∀ f ∈ past, Untouching request.vm ctx'.node.id (s.store.volumesOf request.vm) f) :
    (∃ w w', s'.store.vm? request.vm = some w ∧ s₁.store.vm? request.vm = some w' ∧
        w' = { w with version := w'.version }) ∧
      s₁.store.volumesOf request.vm = s'.store.volumesOf request.vm ∧
      ∃ x x', s'.store.item? item.id = some x ∧ s₁.store.item? item.id = some x' ∧
        x' = { x with step := .done, updated := x'.updated } := by
  obtain ⟨ending, last, now, decides, ⟨closed, sent⟩, ended, lodged, isOpen, owner⟩ :=
    decides_from_point indexed migrates began isOpen unwritten planned lost told decided stops node
      fun _ => within
  have inline : s'.store.vm? request.vm = last.vm := congrArg View.vm ended.view
  have volumes : s'.store.volumesOf request.vm = last.volumes := congrArg View.volumes ended.view
  have filed := ended.filed
  rw [leaves_id] at filed
  cases decides with
  | rejected => exact absurd rfl sent
  | unresolved => exact absurd isOpen closed
  | @moved vm w moves' last cleared same pathless moored on off =>
    obtain ⟨-, now', all, known, followed⟩ :=
      scan_follows cleared.adrift.stowage rfl cleared lodged planned
      isOpen owner scans (told' vm cleared.stored) spares
    rw [off moves, on] at known followed
    have rescanned : s₁.store.vm? request.vm = some (vm.put .running (some p.destination)) := by
      refine (congrArg View.vm followed.view).trans (congrArg some ?_)
      exact if_neg cleared.elsewhere
    refine ⟨⟨w, _, inline.trans moored.stored, rescanned, ?_⟩, ?_, _, _, filed,
      followed.filed, rfl⟩
    · refine Vm.eq_of_bare same.symm moored.state.symm moored.host.symm ?_
      rw [moored.lastHost, Vm.put, if_neg cleared.elsewhere, cleared.movable.host]
      rfl
    · rw [volumes, moored.volumes]
      refine (congrArg View.volumes followed.view).trans
        (known.trans (List.map_congr_left fun _ _ => ?_))
      exact Volume.under_of_plain (moves_movesOf p) moored.moved path_of_movesOf pathless
  | @stayed vm failure cleared on off =>
    obtain ⟨-, now', all, known, followed⟩ :=
      scan_follows cleared.adrift.stowage rfl cleared lodged planned
      isOpen owner scans (told' vm cleared.stored) spares
    rw [on] at known followed
    have rescanned : s₁.store.vm? request.vm = some vm := by
      refine (congrArg View.vm followed.view).trans (congrArg some ?_)
      exact if_pos ⟨cleared.movable.running, cleared.movable.host⟩
    refine ⟨⟨vm, vm, inline.trans cleared.stored, rescanned, rfl⟩, ?_, _, _, filed,
      followed.filed, rfl⟩
    exact (congrArg View.volumes followed.view).trans (known.trans volumes.symm)

def unheard : Oracle := .smooth ⟨0, 1⟩ default fun e =>
  if e.kind ≠ Enumeration.name Agent.Kind.checkState then
    .error (.agentUnavailable e.host (.noSession e.kind))
  else if e.host = ⟨6⟩ then .ok (.ofReply .checkState .on) else .ok (.refusal "")

/-- The machine has arrived with its volume, though nobody has said so. -/
theorem unheard_arrival_is_rescanned :
    ∃ before e after s' item past s₁ result result',
      Run (Secluded removal.vm) 0 (migrate trial removal).run [] ⟨laden, {}, []⟩ result
        (before ++ e :: after) s' ∧ Began item before ∧
      Run (Secluded removal.vm) 1 (scan trial).run [] ⟨e.before, {}, []⟩ result' past s₁ ∧
      (∃ w w', s'.store.vm? removal.vm = some w ∧ s₁.store.vm? removal.vm = some w' ∧
        w' = { w with version := w'.version }) ∧
      s₁.store.volumesOf removal.vm = s'.store.volumesOf removal.vm ∧
      ∃ x x', s'.store.item? item.id = some x ∧ s₁.store.item? item.id = some x' ∧
        x' = { x with step := .done, updated := x'.updated } := by
  have rehearsed : rehearses unheard laden removal removed (some .off) (some .on) 15 id
      (fun _ _ past _ => past.all fun f => f.before.work.rows.all (·.vm = removal.vm)) = true := by
    decide +kernel
  obtain ⟨result, before, e, after, s', item, result', past, s₁, indexed, migrates,
    began, isOpen, unwritten,
    planned, lost, told, decided, scans, told', sole⟩ := rehearsal rehearsed ⟨_, rfl⟩
  simp only [List.all_eq_true, decide_eq_true_eq] at sole
  refine ⟨before, e, after, s', item, past, s₁, result, result', migrates, began, scans,
    lost_storage_migration_is_rescanned indexed migrates began isOpen unwritten
      planned lost told decided (.refl _ _) rfl scans told' (by decide) rfl ?_⟩
  intro f mem _ x listed other
  exact absurd (sole f mem x (Table.mem_of_get? (Store.mem_openItems listed).1)) other

/-- Where the plan of another machine names a volume, the scan and the migration do not agree on
it. -/
theorem encroaching_plan_parts_scan_and_migration :
    ∃ result before e after s' item result' past s₁, Indexed removal.vm paired ∧
      Run (Secluded removal.vm) 0 (migrate trial removal).run [] ⟨paired, {}, []⟩ result
        (before ++ e :: after) s' ∧
      Began item before ∧ Started item.id e.before ∧ Unwritten before ∧
      item.plan = some removed ∧ (∀ f ∈ before ++ e :: after, loses removed.command f) ∧
      (∀ vm, paired.vm? removal.vm = some vm → ∀ f ∈ before ++ e :: after,
        reports trial removal.vm removed vm.token (some .off) (some .on) f) ∧
      (∃ x, s'.store.item? item.id = some x ∧ (x.step = .done ∨ x.step = .error)) ∧
      (e.before.openItem encroaching).1 = .ok () ∧
      e.before.Alike removal.vm (e.before.openItem encroaching).2 ∧
      Run (Secluded removal.vm) 1 (scan trial).run
        [] ⟨(e.before.openItem encroaching).2, {}, []⟩ result' past s₁ ∧
      (∀ vm, paired.vm? removal.vm = some vm → ∀ f ∈ past,
        reports trial removal.vm removed vm.token (some .off) (some .on) f) ∧
      removed.MovesStorage ∧ removed.crossCluster = false ∧
      s₁.store.volumesOf removal.vm ≠ s'.store.volumesOf removal.vm := by
  have rehearsed : rehearses unheard paired removal removed (some .off) (some .on) 15
      (fun store => (store.openItem encroaching).2) (fun store store' _ store₁ =>
        (store.openItem encroaching).1.isOk && (store.item? encroaching.id).isNone &&
        store₁.volumesOf removal.vm ≠ store'.volumesOf removal.vm) = true := by
    decide +kernel
  obtain ⟨result, before, e, after, s', item, result', past, s₁, indexed, migrates,
    began, isOpen, unwritten,
    planned, lost, told, decided, scans, told', also⟩ := rehearsal rehearsed ⟨_, rfl⟩
  simp only [Bool.and_eq_true, decide_eq_true_eq] at also
  obtain ⟨⟨begins, unused⟩, parted⟩ := also
  exact ⟨result, before, e, after, s', item, result', past, s₁, indexed, migrates,
    began, isOpen, unwritten, planned, lost, told, decided, eq_ok_of_isOk begins,
    Store.alike_openItem (by decide) (Option.isNone_iff_eq_none.1 unused), scans,
    told', by decide, rfl, parted⟩

end

end Concurrent
end ControlPlane
