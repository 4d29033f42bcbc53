import ControlPlane.Proofs.Agent.Traffic

/-!
# Requests are read in the order of their queue

Requests are read from the queue of a session in the order in which they have entered it, and each
is in one place at a time: on its way, in the queue, in the hands of a host or gone. So none is read
twice.
-/

namespace ControlPlane.Agent.Traffic
variable {log : List Event} {t t' : Traffic} {e : Event} {id i session : Nat} {answer : Answer}

def Outside (x : Send) : Prop := x.progress = .waiting ∨ x.progress = .admitted

/-- Requests are read from a queue in the order in which they have entered it, and each of them is
in one place at a time. -/
structure Ordered (log : List Event) (t : Traffic) : Prop where
  once : ((entries log).map (·.2)).Nodup
  known : ∀ entry ∈ entries log, ∃ call ∈ begun log,
    call.session = entry.1 ∧ call.id = entry.2
  outside : ∀ id x, t.registry.send? id = some x → Outside x → id ∉ (entries log).map (·.2)
  order : ∀ session, ofSession session (readings log) ++
    (t.registry.queue session).map (·.id) <+: ofSession session (entries log)
  whole : ∀ session, t.registry.isOpen session = true → ofSession session (entries log) =
    ofSession session (readings log) ++ (t.registry.queue session).map (·.id)
  hands : (t.hands ++ partings log).Perm ((readings log).map (·.2))

theorem Ordered.start (depth : Nat) : Ordered [] { registry := .ofDepth depth } where
  once := .nil
  known := by simp [entries]
  outside := by simp [entries]
  order :=
    fun session => by
      simp [ofSession, readings, entries, Registry.queue, Registry.session?, Registry.ofDepth]
  whole := fun session opens => by
    simp [Registry.isOpen, Registry.session?, Registry.ofDepth] at opens
  hands := by simp [partings, readings]

@[simp] theorem ofSession_append (session : Nat) (xs ys : List (Nat × Nat)) :
    ofSession session (xs ++ ys) = ofSession session xs ++ ofSession session ys := by
  simp [ofSession]

theorem ofSession_singleton (session : Nat) (entry : Nat × Nat) :
    ofSession session [entry] = if entry.1 = session then [entry.2] else [] := by
  simp only [ofSession, List.filter_cons, decide_eq_true_eq, List.filter_nil]
  split <;> rfl

theorem Ordered.earlier (h : Ordered log t) (e : Event) : ∀ entry ∈ entries log,
    ∃ call ∈ begun (log ++ [e]), call.session = entry.1 ∧ call.id = entry.2 := by
  intro entry mem
  obtain ⟨call, mem, found⟩ := h.known entry mem
  exact ⟨call, begun_append log e ▸ List.mem_append_left _ mem, found⟩

/-- Nothing happens in the queues. -/
theorem Ordered.still (h : Ordered log t) (entry : e.entry? = none) (noReading : e.reading? = none)
    (noParting : e.parting? = none) (hands : t'.hands = t.hands)
    (isOpen : t'.registry.isOpen = t.registry.isOpen) (queue : t'.registry.queue = t.registry.queue)
    (outside : ∀ i y, t'.registry.send? i = some y → Outside y →
      i ∉ (entries log).map (·.2)) :
    Ordered (log ++ [e]) t' := by
  have entriesSame : entries (log ++ [e]) = entries log := by rw [entries_append, entry]; simp
  have readingsSame : readings (log ++ [e]) = readings log := by
    rw [readings_append, noReading]; simp
  refine ⟨entriesSame ▸ h.once, entriesSame.symm ▸ h.earlier e, ?_, ?_, ?_, ?_⟩
  · exact fun id y found outsideY => entriesSame ▸ outside id y found outsideY
  · rw [readingsSame, entriesSame, queue]
    exact h.order
  · rw [readingsSame, entriesSame, queue, isOpen]
    exact h.whole
  · rw [readingsSame, partings_append, noParting, hands, Option.toList_none, List.append_nil]
    exact h.hands

/-- A request enters the queue of a session. -/
theorem Ordered.enter (h : Ordered log t) {request : Request}
    (entry : e.entry? = some (session, request.id)) (noReading : e.reading? = none)
    (noParting : e.parting? = none) (hands : t'.hands = t.hands)
    (isOpen : t'.registry.isOpen = t.registry.isOpen)
    (fills : t.registry.Fills t'.registry session request true)
    (opens : t.registry.isOpen session = true) (new : request.id ∉ (entries log).map (·.2))
    (mine : ∃ call ∈ begun (log ++ [e]), call.session = session ∧ call.id = request.id)
    (outside : ∀ i y, t'.registry.send? i = some y → Outside y →
      i ∉ (entries log).map (·.2) ∧ i ≠ request.id) : Ordered (log ++ [e]) t' := by
  have readingsSame : readings (log ++ [e]) = readings log := by
    rw [readings_append, noReading]; simp
  have entriesMore : entries (log ++ [e]) = entries log ++ [(session, request.id)] := by
    rw [entries_append, entry]
    rfl
  have grows : ∀ i, ofSession i (entries log) = ofSession i (readings log) ++
    (t.registry.queue i).map (·.id) → ofSession i (entries (log ++ [e])) =
        ofSession i (readings log) ++ (t'.registry.queue i).map (·.id) := by
    intro i whole
    rw [entriesMore, ofSession_append, ofSession_singleton, fills i, whole]
    by_cases here : session = i
    · rw [if_pos here, if_pos ⟨here.symm, rfl⟩]
      simp
    · rw [if_neg here, if_neg fun both => here both.1.symm]
      simp
  refine ⟨?_, ?_, ?_, fun i => ?_, fun i opens' => ?_, ?_⟩
  · rw [entriesMore, List.map_append]
    refine List.nodup_append.2 ⟨h.once, List.nodup_singleton _,
      fun id mem id' mem' same => new ?_⟩
    rw [List.mem_singleton.1 mem'] at same
    exact (show id = request.id from same) ▸ mem
  · rw [entriesMore]
    intro entry mem
    rcases List.mem_append.1 mem with mem | mem
    · exact h.earlier e entry mem
    · rw [List.mem_singleton.1 mem]
      exact mine
  · intro id y found outsideY
    obtain ⟨notEarlier, notNow⟩ := outside id y found outsideY
    rw [entriesMore, List.map_append, List.mem_append]
    exact fun mem => mem.elim notEarlier fun mem => notNow (List.mem_singleton.1 mem)
  · rw [readingsSame]
    by_cases here : session = i
    · exact (grows i (h.whole i (here ▸ opens))).symm ▸ List.prefix_refl _
    · rw [entriesMore, ofSession_append, ofSession_singleton, if_neg here,
        List.append_nil, fills i, if_neg fun both => here both.1.symm]
      exact h.order i
  · rw [readingsSame]
    exact grows i (h.whole i (isOpen ▸ opens'))
  · rw [readingsSame, partings_append, noParting, hands, Option.toList_none, List.append_nil]
    exact h.hands

/-- The request of a send enters the queue of its session, or does not. -/
theorem Ordered.fill (h : Ordered log t) (request : Request) (entered : Bool)
    (entry : e.entry? = if entered then some (session, request.id) else none)
    (noReading : e.reading? = none) (noParting : e.parting? = none) (hands : t'.hands = t.hands)
    (isOpen : t'.registry.isOpen = t.registry.isOpen)
    (fills : t.registry.Fills t'.registry session request entered)
    (room : entered = true → t.registry.isOpen session = true ∧
      request.id ∉ (entries log).map (·.2))
    (mine : ∃ call ∈ begun (log ++ [e]), call.session = session ∧ call.id = request.id)
    (outside : ∀ i y, t'.registry.send? i = some y → Outside y →
      i ∉ (entries log).map (·.2) ∧ (entered = true → i ≠ request.id)) :
      Ordered (log ++ [e]) t' := by
  cases entered with
  | false =>
    refine h.still entry noReading noParting hands isOpen (funext fun i => ?_)
      fun i y found outsideY =>
      (outside i y found outsideY).1
    rw [fills i, if_neg (by simp)]
  | true =>
    exact h.enter entry noReading noParting hands isOpen fills (room rfl).1 (room rfl).2 mine
      fun i y found outsideY => (outside i y found outsideY).imp_right fun apart => apart rfl

theorem Ordered.lt_of_entry (h : Ordered log t) (tracked : Tracked log t) {entry : Nat × Nat}
    (mem : entry ∈ entries log) : entry.1 < t.registry.fresh ∧ entry.2 < t.registry.fresh := by
  obtain ⟨call, mem, here, named⟩ := h.known entry mem
  exact here ▸ named ▸ (tracked.below call mem).symm

theorem Ordered.new (h : Ordered log t) (tracked : Tracked log t) :
    t.registry.fresh ∉ (entries log).map (·.2) := by
  intro mem
  obtain ⟨entry, mem, named⟩ := List.mem_map.1 mem
  exact Nat.ne_of_lt (h.lt_of_entry tracked mem).2 named

theorem outside_of_promoted {before after : Option Send} (h : Registry.Promoted before after)
    {y : Send} (found : after = some y) (outside : Outside y) :
    ∃ x, before = some x ∧ Outside x := by
  rcases h with same | ⟨x, same, waits, -⟩
  · exact ⟨y, same ▸ found, outside⟩
  · exact ⟨x, same, .inl waits⟩

theorem Ordered.connect (h : Ordered log t) (tracked : Tracked log t) (host : HostId) :
    Ordered (log ++ [.connected host t.registry.fresh])
      { t with registry := (t.registry.connect host).2 } := by
  have opens := Registry.opens tracked.numbered host
  have unread : ∀ i, t.registry.fresh ≤ i → ofSession i (entries log) = [] := by
    intro i new
    simp only [ofSession, List.map_eq_nil_iff, List.filter_eq_nil_iff, decide_eq_true_eq]
    exact fun entry mem => Nat.ne_of_lt (Nat.lt_of_lt_of_le (h.lt_of_entry tracked mem).1 new)
  have entriesSame : entries (log ++ [.connected host t.registry.fresh]) = entries log := by
    simp [Event.entry?]
  have readingsSame : readings (log ++ [.connected host t.registry.fresh]) = readings log := by
    simp [Event.reading?]
  refine ⟨entriesSame ▸ h.once, ?_, fun id x found => ?_, fun i => ?_, fun i open' => ?_, ?_⟩
  · rw [entriesSame, begun_append]
    simpa [Event.call?] using h.known
  · rw [entriesSame]
    exact h.outside id x (by rw [← opens.sends]; exact found)
  · rw [entriesSame, readingsSame]
    show _ ++ ((t.registry.connect host).2.queue i).map _ <+: _
    rw [opens.queue]
    exact h.order i
  · rw [entriesSame, readingsSame]
    show _ = _ ++ ((t.registry.connect host).2.queue i).map _
    rw [opens.queue]
    by_cases old : i < t.registry.fresh
    · exact h.whole i (opens.isOpen i old ▸ open')
    · have none := unread i (Nat.le_of_not_lt old)
      have order := h.order i
      rw [none, List.prefix_nil] at order
      rw [none, order]
  · rw [readingsSame]
    simpa [Event.parting?] using h.hands

theorem Ordered.close (h : Ordered log t) (tracked : Tracked log t) (session : Nat) :
    Ordered (log ++ [.closed session]) { t with registry := t.registry.close session } := by
  have closes := Registry.closes tracked.numbered session
  have entriesSame : entries (log ++ [.closed session]) = entries log := by simp [Event.entry?]
  have readingsSame : readings (log ++ [.closed session]) = readings log := by simp [Event.reading?]
  refine ⟨entriesSame ▸ h.once, ?_, fun id y found outside => ?_, fun i => ?_,
    fun i open' => ?_, ?_⟩
  · rw [entriesSame, begun_append]
    simpa [Event.call?] using h.known
  · rw [entriesSame]
    rcases closes.sends id with same | ⟨x, -, -, same⟩
    · exact h.outside id y (same ▸ found) outside
    · rw [found] at same
      cases same
      rcases outside with same | same <;> cases same
  · rw [entriesSame, readingsSame]
    show _ ++ ((t.registry.close session).queue i).map _ <+: _
    rw [closes.queue]
    split
    · rw [List.map_nil, List.append_nil]
      exact (List.prefix_append _ _).trans (h.order i)
    · exact h.order i
  · rw [entriesSame, readingsSame]
    obtain ⟨open', other⟩ := closes.isOpen i open'
    show _ = _ ++ ((t.registry.close session).queue i).map _
    rw [closes.queue, if_neg other]
    exact h.whole i open'
  · rw [readingsSame]
    simpa [Event.parting?] using h.hands

theorem Ordered.read (h : Ordered log t) {request : Request} {r' : Registry}
    (reads : t.registry.Reads session request r') :
    Ordered (log ++ [.read session request.id])
      { t with registry := r', hands := request.id :: t.hands } := by
  have entriesSame : entries (log ++ [.read session request.id]) = entries log := by
    simp [Event.entry?]
  have readingsMore : readings (log ++ [.read session request.id]) = readings log ++
    [(session, request.id)] := by
    simp [Event.reading?]
  have moves : ∀ i, ofSession i (readings (log ++ [.read session request.id])) ++
    (r'.queue i).map (·.id) = ofSession i (readings log) ++ (t.registry.queue i).map (·.id) := by
    intro i
    rw [readingsMore, ofSession_append, ofSession_singleton]
    by_cases here : session = i
    · subst here
      rw [if_pos rfl, reads.first]
      simp
    · rw [if_neg here, reads.others i fun same => here same.symm, List.append_nil]
  refine ⟨entriesSame ▸ h.once, ?_, fun id y found outside => ?_, fun i => ?_,
    fun i open' => ?_, ?_⟩
  · rw [entriesSame, begun_append]
    simpa [Event.call?] using h.known
  · rw [entriesSame]
    obtain ⟨x, found, outside⟩ := outside_of_promoted (reads.sends id) found outside
    exact h.outside id x found outside
  · rw [moves, entriesSame]
    exact h.order i
  · rw [moves, entriesSame]
    exact h.whole i (reads.isOpen ▸ open')
  · rw [readingsMore, List.map_append]
    have hands := h.hands
    have partingsSame : partings (log ++ [.read session request.id]) = partings log := by
      simp [Event.parting?]
    rw [partingsSame]
    exact (List.Perm.cons request.id hands).trans (List.perm_append_singleton _ _).symm

/-- A request goes out of the hands of a host. -/
theorem Ordered.part (h : Ordered log t) {before after : List Nat}
    (split : t.hands = before ++ id :: after) (entry : e.entry? = none)
    (noReading : e.reading? = none) (parting : e.parting? = some id)
    (hands : t'.hands = before ++ after) (queue : t'.registry.queue = t.registry.queue)
    (isOpen : t'.registry.isOpen = t.registry.isOpen)
    (outside : ∀ i y, t'.registry.send? i = some y → Outside y →
      t.registry.send? i = some y) :
    Ordered (log ++ [e]) t' := by
  have entriesSame : entries (log ++ [e]) = entries log := by rw [entries_append, entry]; simp
  have readingsSame : readings (log ++ [e]) = readings log := by
    rw [readings_append, noReading]; simp
  refine ⟨entriesSame ▸ h.once, ?_, fun i y found outsideY => ?_, ?_, ?_, ?_⟩
  · rw [entriesSame, begun_append]
    intro entry mem
    obtain ⟨call, mem, found⟩ := h.known entry mem
    exact ⟨call, List.mem_append_left _ mem, found⟩
  · rw [entriesSame]
    exact h.outside i y (outside i y found outsideY) outsideY
  · rw [entriesSame, readingsSame, queue]
    exact h.order
  · rw [entriesSame, readingsSame, queue, isOpen]
    exact h.whole
  · rw [readingsSame, partings_append, parting, hands]
    refine List.Perm.trans ?_ h.hands
    rw [split]
    simp only [Option.toList_some, List.append_assoc, List.cons_append]
    refine List.Perm.append_left before ?_
    rw [← List.append_assoc]
    exact List.perm_append_singleton id (after ++ partings log)

theorem not_outside_of_setProgress {r : Registry} {p : Progress}
    (settled : p ≠ .waiting ∧ p ≠ .admitted) {y : Send}
    (found : (r.setProgress id p).send? i = some y) (outside : Outside y) :
    r.send? i = some y := by
  rw [Registry.send?_setProgress] at found
  split at found
  · obtain ⟨x, -, same⟩ := Option.map_eq_some_iff.1 found
    rw [← same] at outside
    rcases outside with waits | admitted
    · exact absurd waits settled.1
    · exact absurd admitted settled.2
  · exact found

theorem Ordered.begin (h : Ordered log t) (tracked : Tracked log t) {envelope : Envelope}
    {now deadline : Nat} {entered : Bool} {r' : Registry}
    (begins : t.registry.Begins envelope session entered r') :
    Ordered (log ++ [.begun ⟨t.registry.fresh, envelope, session, deadline⟩ entered])
      { t with
        registry := r', clock := now, calls := t.calls ++
          [⟨t.registry.fresh, envelope, session, deadline⟩] } := by
  obtain ⟨p, sends, stage⟩ := begins.sends
  have new := h.new tracked
  have mine : ⟨t.registry.fresh, envelope, session, deadline⟩ ∈
      begun (log ++ [.begun ⟨t.registry.fresh, envelope, session, deadline⟩ entered]) := by
    simp [Event.call?]
  refine h.fill _ entered ?_ rfl rfl rfl begins.isOpen begins.fills
    (fun entered => ⟨begins.room entered, new⟩) ⟨_, mine, rfl, rfl⟩ ?_
  · cases entered <;> rfl
  · intro i y found outside
    change r'.send? i = some y at found
    rw [sends] at found
    split at found
    next here =>
      subst here
      cases found
      refine ⟨new, fun entered => ?_⟩
      subst entered
      simp only [ite_true] at stage
      rcases outside with same | same <;> simp [stage] at same
    next there => exact ⟨h.outside i y found outside, fun _ => there⟩

/-- What the own request of a sender that looks has to do with the queue. -/
theorem Ordered.own (h : Ordered log t) {x : Send} (found : t.registry.send? id = some x)
    {entered : Bool} {p : Progress}
    (course : if entered then x.progress = .admitted ∧ t.registry.isOpen x.session = true ∧
      p = .queued else (p = x.progress ∧ p ≠ .admitted) ∨
        (x.progress = .waiting ∨ x.progress = .admitted) ∧ p = .lost .sessionClosed) :
    (entered = true → t.registry.isOpen x.session = true ∧ id ∉ (entries log).map (·.2)) ∧
      (Outside { x with progress := p } → id ∉ (entries log).map (·.2) ∧
        entered = false) := by
  cases entered with
  | true =>
    obtain ⟨admitted, opens, same⟩ := course
    refine ⟨fun _ => ⟨opens, h.outside id x found (.inr admitted)⟩, fun outside => ?_⟩
    rcases outside with waits | waits <;> simp [same] at waits
  | false =>
    refine ⟨nofun, fun outside => ⟨?_, rfl⟩⟩
    rcases course with ⟨same, -⟩ | ⟨-, same⟩
    · refine h.outside id x found ?_
      simpa only [Outside, same] using outside
    · rcases outside with waits | waits <;> simp [same] at waits

theorem Ordered.step (h : Ordered log t) (tracked : Tracked log t) (step : Step t e t') :
    Ordered (log ++ [e]) t' := by
  have numbered := tracked.numbered
  cases step with
  | connect host => exact h.connect tracked host
  | disconnect host => exact h.still rfl rfl rfl rfl rfl rfl h.outside
  | close session => exact h.close tracked session
  | refuse envelope refused =>
    have same := Registry.begin_refused refused
    refine h.still rfl rfl rfl rfl ?_ ?_ ?_ <;> simp only [same]
    exact h.outside
  | @begin envelope id session now later begun linked =>
    obtain ⟨rfl, session', linked', old, begins⟩ :=
      Registry.begins numbered (Prod.ext begun rfl)
    cases linked.symm.trans linked'
    exact h.begin tracked begins
  | @wait call mem now later pending =>
    obtain ⟨x, found, request, here⟩ := tracked.send mem
    obtain ⟨-, entered, p, goes, -⟩ := waits numbered found pending
    obtain ⟨room, outside⟩ := h.own found goes.course
    rw [here] at room
    have named : x.request.id = call.id := by rw [request]
    have observed : t.registry.grown (call.sending.poll t.registry now).2 call.session = entered :=
      here ▸ goes.fills.grown
    rw [observed]
    have fills : t.registry.Fills (call.sending.poll t.registry now).2 call.session
      x.request entered :=
      here ▸ goes.fills
    refine h.fill x.request entered ?_ rfl rfl rfl goes.isOpen fills (named.symm ▸ room)
      ⟨call, begun_append .. ▸ List.mem_append_left _ (tracked.calls.subset mem),
        rfl, named.symm⟩ ?_
    · cases entered <;> simp [Event.entry?, named]
    · intro i y found' outsideY
      change (call.sending.poll t.registry now).2.send? i = some y at found'
      rw [goes.sends] at found'
      split at found'
      next same =>
        cases found'
        obtain ⟨apart, notNow⟩ := outside outsideY
        exact ⟨same ▸ apart, fun entered => absurd entered (by simp [notNow])⟩
      next other => exact ⟨h.outside i y found' outsideY, fun _ => named.symm ▸ other⟩
  | @finish before after call split now later result ended =>
    have mem : call ∈ t.calls := by simp [split]
    obtain ⟨x, found, request, here⟩ := tracked.send mem
    obtain ⟨entered, p, ends⟩ := ends numbered found ended
    obtain ⟨room, -⟩ := h.own found ends.course
    rw [here] at room
    have named : x.request.id = call.id := by rw [request]
    have observed : t.registry.grown (call.sending.poll t.registry now).2 call.session = entered :=
      here ▸ ends.fills.grown
    rw [observed]
    have fills : t.registry.Fills (call.sending.poll t.registry now).2 call.session
      x.request entered :=
      here ▸ ends.fills
    refine h.fill x.request entered ?_ rfl rfl rfl ends.isOpen fills (named.symm ▸ room)
      ⟨call, begun_append .. ▸ List.mem_append_left _ (tracked.calls.subset mem),
        rfl, named.symm⟩ ?_
    · cases entered <;> simp [Event.entry?, named]
    · intro i y found' outsideY
      by_cases same : i = call.id
      · subst same
        exact absurd (ends.gone.symm.trans found') nofun
      · obtain ⟨x', found', outsideX⟩ :=
          outside_of_promoted (ends.others i same) found' outsideY
        exact ⟨h.outside i x' found' outsideX, fun _ => named.symm ▸ same⟩
  | @read session request received => exact h.read (Registry.reads numbered (Prod.ext received rfl))
  | @respond before after id split answer now later =>
    rcases t.registry.respond_cases id answer with same | ⟨x, -, -, same⟩ <;> rw [same]
    · exact h.part split rfl rfl rfl rfl rfl rfl fun _ _ found _ => found
    · exact h.part split rfl rfl rfl rfl rfl rfl fun _ _ =>
        not_outside_of_setProgress (p := .answered answer) ⟨nofun, nofun⟩
  | @drop before after id split =>
    rcases t.registry.drop_cases id with same | ⟨x, -, -, same⟩ <;> rw [same]
    · exact h.part split rfl rfl rfl rfl rfl rfl fun _ _ found _ => found
    · exact h.part split rfl rfl rfl rfl rfl rfl fun _ _ =>
        not_outside_of_setProgress (p := .lost .requestDropped) ⟨nofun, nofun⟩

/-! ### Each request is in one place -/

def Has (t : Traffic) (id : Nat) : Prop :=
  id ∈ t.hands ∨ ∃ session, id ∈ (t.registry.queue session).map (·.id)

theorem Event.parting?_of_hearing? (h : e.hearing? = some (id, answer)) : e.parting? = some id := by
  unfold Event.hearing? at h
  split at h
  · cases h
    rfl
  · cases h

theorem parted_of_hearing (mem : (id, answer) ∈ hearings log) : id ∈ partings log := by
  obtain ⟨e, mem, same⟩ := List.mem_filterMap.1 mem
  exact List.mem_filterMap.2 ⟨e, mem, Event.parting?_of_hearing? same⟩

section
variable (h : Ordered log t)
include h

theorem Ordered.entered_of_read {entry : Nat × Nat} (mem : entry ∈ readings log) :
    entry ∈ entries log := by
  have mem' : entry.2 ∈ ofSession entry.1 (entries log) := by
    refine (h.order entry.1).subset (List.mem_append_left _ ?_)
    exact List.mem_map.2 ⟨entry, List.mem_filter.2 ⟨mem, by simp⟩, rfl⟩
  obtain ⟨other, mem, named⟩ := List.mem_map.1 mem'
  obtain ⟨mem, here⟩ := List.mem_filter.1 mem
  exact Prod.ext (of_decide_eq_true here) named ▸ mem

theorem Ordered.entered_of_queue (mem : id ∈ (t.registry.queue session).map (·.id)) :
    (session, id) ∈ entries log := by
  obtain ⟨entry, mem, named⟩ :=
    List.mem_map.1 ((h.order session).subset (List.mem_append_right _ mem))
  obtain ⟨mem, here⟩ := List.mem_filter.1 mem
  exact (Prod.ext (of_decide_eq_true here) named : entry = (session, id)) ▸ mem

theorem Ordered.entered_of_parting (mem : id ∈ t.hands ∨ id ∈ partings log) :
    ∃ session, (session, id) ∈ readings log := by
  obtain ⟨entry, read, rfl⟩ := List.mem_map.1 (h.hands.subset (List.mem_append.2 mem))
  exact ⟨entry.1, read⟩

theorem Ordered.entered_of_has (has : t.Has id) : id ∈ (entries log).map (·.2) := by
  rcases has with mem | ⟨session, mem⟩
  · obtain ⟨session, mem⟩ := h.entered_of_parting (.inl mem)
    exact List.mem_map_of_mem (h.entered_of_read mem)
  · exact List.mem_map_of_mem (h.entered_of_queue mem)

theorem Ordered.eq_of_entries {x y : Nat × Nat} (memX : x ∈ entries log)
    (memY : y ∈ entries log) (same : x.2 = y.2) : x = y :=
  List.inj_on_of_nodup_map h.once memX memY same

theorem Ordered.nodup_ofSession (session : Nat) : (ofSession session (entries log)).Nodup :=
  h.once.sublist (List.filter_sublist.map _)

/-- A request that has been read is no longer in a queue. -/
theorem Ordered.not_queued_of_read (mem : (session, id) ∈ readings log) (other : Nat) :
    id ∉ (t.registry.queue other).map (·.id) := by
  intro queued
  have same := h.eq_of_entries (h.entered_of_read mem) (h.entered_of_queue queued) rfl
  cases same
  have distinct := (h.nodup_ofSession session).sublist (h.order session).sublist
  refine (List.nodup_append.1 distinct).2.2 id ?_ id queued rfl
  exact List.mem_map.2 ⟨(session, id), List.mem_filter.2 ⟨mem, by simp⟩, rfl⟩

/-- No request is read twice. -/
theorem Ordered.nodup_readings : ((readings log).map (·.2)).Nodup := by
  refine List.pairwise_map.2 (List.pairwise_iff_forall_sublist.2 fun {x y} sub same => ?_)
  have memX : x ∈ readings log := sub.subset (by simp)
  have memY : y ∈ readings log := sub.subset (by simp)
  cases h.eq_of_entries (h.entered_of_read memX) (h.entered_of_read memY) same
  -- Twice in the readings is twice among those of one session.
  have twice : [x.2, x.2].Sublist (ofSession x.1 (readings log)) := by
    have := (sub.filter (·.1 = x.1)).map (·.2)
    simpa [ofSession] using this
  have once := (h.nodup_ofSession x.1).sublist
    ((List.sublist_append_left _ _).trans (h.order x.1).sublist)
  exact absurd (once.sublist twice) (by simp)

/-- A request is not in the hands of two hosts, and in nobody's hands once it has been answered or
dropped. -/
theorem Ordered.nodup_hands : (t.hands ++ partings log).Nodup :=
  h.hands.nodup_iff.2 h.nodup_readings

theorem Ordered.gone {before after : List Nat} (split : t.hands = before ++ id :: after)
    (hands : t'.hands = before ++ after) (queue : t'.registry.queue = t.registry.queue) :
    ¬ t'.Has id := by
  have distinct := (List.nodup_append.1 h.nodup_hands).1
  rw [split, List.nodup_append, List.nodup_cons] at distinct
  obtain ⟨-, ⟨notAfter, -⟩, apart⟩ := distinct
  rintro (mem | ⟨session, mem⟩)
  · rw [hands] at mem
    rcases List.mem_append.1 mem with mem | mem
    · exact apart id mem id List.mem_cons_self rfl
    · exact notAfter mem
  · rw [queue] at mem
    obtain ⟨reader, read⟩ := h.entered_of_parting (.inl (show id ∈ t.hands by simp [split]))
    exact h.not_queued_of_read read session mem

theorem Ordered.entered_of_hearing (mem : (id, answer) ∈ hearings log) :
    id ∈ (entries log).map (·.2) := by
  obtain ⟨session, read⟩ := h.entered_of_parting (.inr (parted_of_hearing mem))
  exact List.mem_map_of_mem (h.entered_of_read read)

end

end ControlPlane.Agent.Traffic
