import ControlPlane.Agent.Sending
import Mathlib.Data.List.Nodup

/-!
# Sends and queues

What the registry of host sessions does to a send, to the queues and to the places in them. A send
is told by its number and a queue by that of its session. Besides the send that is dealt with, only
one that waits for a place is ever touched: the place that becomes free is kept for it.
-/

namespace ControlPlane.Agent.Registry
variable {r r' : Registry} {id i session : Nat} {x y : Send} {request : Request} {p : Progress}

def queue (r : Registry) (session : Nat) : List Request :=
  ((r.session? session).map (·.queue)).getD []

def isOpen (r : Registry) (session : Nat) : Bool := (r.session? session).any (·.alive)

def kept (r : Registry) (session : Nat) : Nat :=
  r.sends.countP fun x => x.session = session ∧ x.progress = .admitted

/-- The numbers that have been given out are below the next one, and none was given out twice. -/
structure Numbered (r : Registry) : Prop where
  sends : ∀ x ∈ r.sends, x.request.id < r.fresh
  sessions : ∀ s ∈ r.sessions, s.id < r.fresh
  distinct : (r.sends.map (·.request.id)).Nodup

theorem id_of_send? (h : r.send? id = some x) : x.request.id = id := by
  simpa using List.find?_some h

theorem id_of_session? {s : Session} (h : r.session? session = some s) : s.id = session := by
  simpa using List.find?_some h

theorem send?_of_mem (h : r.Numbered) (mem : x ∈ r.sends) : r.send? x.request.id = some x := by
  have distinct := h.distinct
  unfold send?
  generalize r.sends = sends at mem distinct
  induction sends with
  | nil => cases mem
  | cons y sends ih =>
    rw [List.map_cons, List.nodup_cons] at distinct
    rcases List.mem_cons.1 mem with rfl | mem
    · simp
    · have ne : y.request.id ≠ x.request.id := fun same =>
        distinct.1 (same ▸ List.mem_map_of_mem mem)
      rw [List.find?_cons_of_neg (by simpa using ne)]
      exact ih mem distinct.2

theorem queue_of_session? {s : Session} (h : r.session? session = some s) :
    r.queue session = s.queue := by
  simp [queue, h]

/-- No request has come to a session that is not there yet. -/
theorem queue_fresh (h : r.Numbered) (new : r.fresh ≤ session) : r.queue session = [] := by
  cases found : r.session? session with
  | none => simp [queue, found]
  | some s =>
    have := h.sessions s (List.mem_of_find?_eq_some found)
    rw [id_of_session? found] at this
    omega

/-! ### One send, one session -/

theorem send?_setProgress (r : Registry) (id : Nat) (p : Progress) (i : Nat) :
    (r.setProgress id p).send? i =
      if i = id then (r.send? i).map ({ · with progress := p }) else r.send? i := by
  have same : ((fun x : Send => decide (x.request.id = i)) ∘ fun x : Send =>
      if x.request.id = id then { x with progress := p } else x) = fun x =>
      decide (x.request.id = i) := by
    funext x
    simp only [Function.comp]
    split <;> rfl
  unfold setProgress send?
  rw [List.find?_map, same]
  cases found : r.sends.find? fun x => decide (x.request.id = i) with
  | none => simp
  | some x =>
    have named : x.request.id = i := by simpa using List.find?_some found
    split
    next here => simp [named, here]
    next there => simp [named, there]

theorem session?_updateSession {f : Session → Session} (keeps : ∀ s, (f s).id = s.id)
    (r : Registry) (session i : Nat) : (r.updateSession session f).session? i =
      if i = session then (r.session? i).map f else r.session? i := by
  have same : ((fun s : Session => decide (s.id = i)) ∘ fun s : Session =>
      if s.id = session then f s else s) = fun s => decide (s.id = i) := by
    funext s
    simp only [Function.comp]
    split <;> simp [keeps]
  unfold updateSession session?
  rw [List.find?_map, same]
  cases found : r.sessions.find? fun s => decide (s.id = i) with
  | none => simp
  | some s =>
    have named : s.id = i := by simpa using List.find?_some found
    split
    next here => simp [named, here]
    next there => simp [named, there]

theorem Numbered.setProgress (h : r.Numbered) (id : Nat) (p : Progress) :
    (r.setProgress id p).Numbered := by
  have same : (r.setProgress id p).sends.map (·.request.id) = r.sends.map (·.request.id) := by
    simp only [Registry.setProgress, List.map_map]
    refine List.map_congr_left fun x _ => ?_
    simp only [Function.comp]
    split <;> rfl
  refine ⟨fun x mem => ?_, h.sessions, same ▸ h.distinct⟩
  have mem' : x.request.id ∈ r.sends.map (·.request.id) := same ▸ List.mem_map_of_mem mem
  obtain ⟨y, mem, named⟩ := List.mem_map.1 mem'
  exact named ▸ h.sends y mem

theorem Numbered.updateSession {f : Session → Session} (keeps : ∀ s, (f s).id = s.id)
    (h : r.Numbered) (session : Nat) : (r.updateSession session f).Numbered := by
  refine ⟨h.sends, fun s mem => ?_, h.distinct⟩
  obtain ⟨s', mem', rfl⟩ := List.mem_map.1 mem
  split
  · exact (keeps s').symm ▸ h.sessions s' mem'
  · exact h.sessions s' mem'

theorem split_of_send? (h : r.Numbered) (found : r.send? id = some x) :
    ∃ before after, r.sends = before ++ x :: after ∧ (∀ y ∈ before, y.request.id ≠ id) ∧
      ∀ y ∈ after, y.request.id ≠ id := by
  obtain ⟨before, after, split⟩ := List.append_of_mem (List.mem_of_find?_eq_some found)
  have named := id_of_send? found
  have distinct := h.distinct
  rw [split, List.map_append, List.map_cons, List.nodup_append, List.nodup_cons] at distinct
  obtain ⟨-, ⟨notAfter, -⟩, apart⟩ := distinct
  refine ⟨before, after, split, fun y mem same => ?_, fun y mem same => ?_⟩
  · exact apart _ (List.mem_map_of_mem mem) _ List.mem_cons_self (same.trans named.symm)
  · exact notAfter (named.trans same.symm ▸ List.mem_map_of_mem mem)

/-- A send that gets a place, or that loses or gives up one, changes the places that are kept by
one. -/
theorem kept_setProgress (h : r.Numbered) (found : r.send? id = some x)
    (p : Progress) (session : Nat) :
    (r.setProgress id p).kept session +
        (if x.session = session ∧ x.progress = .admitted then 1 else 0) =
      r.kept session + if x.session = session ∧ p = .admitted then 1 else 0 := by
  obtain ⟨before, after, split, apartBefore, apartAfter⟩ := split_of_send? h found
  have others : ∀ sends : List Send, (∀ y ∈ sends, y.request.id ≠ id) →
      sends.map (fun y => if y.request.id = id then { y with progress := p } else y) = sends := by
    intro sends away
    refine (List.map_congr_left fun y mem => ?_).trans (List.map_id _)
    simp [away y mem]
  unfold kept
  simp only [Registry.setProgress, split, List.map_append, List.map_cons, others before apartBefore,
    others after apartAfter, id_of_send? found, ite_true, List.countP_append, List.countP_cons,
    decide_eq_true_eq]
  split <;> split <;> omega

/-- The request of a send and the session that it goes to: whatever comes of it, they stay as they
are. -/
def address (x : Send) : Request × Nat := (x.request, x.session)

/-- A place in the queue has been kept for a send, or else nothing has become of it. -/
def Promoted (before after : Option Send) : Prop :=
  after = before ∨ ∃ x, before = some x ∧ x.progress = .waiting ∧
    after = some { x with progress := .admitted }

theorem Promoted.address {before after : Option Send} (h : Promoted before after) :
    after.map address = before.map address := by
  rcases h with same | ⟨x, found, -, same⟩
  · rw [same]
  · rw [same, found]
    rfl

def Bounded (r : Registry) : Prop :=
  ∀ session, (r.queue session).length + r.kept session ≤ r.depth

/-- Whether a request has entered the queue of a session; nothing else has become of the queues. -/
def Fills (r r' : Registry) (session : Nat) (request : Request) (entered : Bool) : Prop :=
  ∀ i, r'.queue i = if i = session ∧ entered = true then r.queue i ++ [request] else r.queue i

def grown (r r' : Registry) (session : Nat) : Bool :=
  decide ((r.queue session).length < (r'.queue session).length)

theorem Fills.grown {entered : Bool} (h : Fills r r' session request entered) :
    grown r r' session = entered := by
  unfold Registry.grown
  rw [h session]
  cases entered <;> simp

/-! ### A place becomes free -/

theorem mem_of_waiting {x : Send}
    (h : r.sends.find? (fun x => x.session = session ∧ x.progress = .waiting) = some x) :
    x ∈ r.sends ∧ x.session = session ∧ x.progress = .waiting :=
  ⟨List.mem_of_find?_eq_some h, by simpa using List.find?_some h⟩

theorem promoted_admitNext (h : r.Numbered) (session i : Nat) :
    Promoted (r.send? i) ((r.admitNext session).send? i) := by
  unfold admitNext
  split
  · exact .inl rfl
  next x found =>
    obtain ⟨mem, -, waits⟩ := mem_of_waiting found
    rw [send?_setProgress]
    split
    next here =>
      subst here
      rw [send?_of_mem h mem]
      exact .inr ⟨x, rfl, waits, rfl⟩
    · exact .inl rfl

theorem kept_admitNext (h : r.Numbered) (session i : Nat) :
    (r.admitNext session).kept i ≤ r.kept i + if i = session then 1 else 0 := by
  unfold admitNext
  split
  · exact Nat.le_add_right _ _
  next x found =>
    obtain ⟨mem, here, waits⟩ := mem_of_waiting found
    have counted := kept_setProgress h (send?_of_mem h mem) .admitted i
    simp only [waits, reduceCtorEq, and_false, ite_false, and_true, here] at counted
    rw [Nat.add_zero] at counted
    rw [counted]
    split <;> split <;> omega

theorem Numbered.admitNext (h : r.Numbered) (session : Nat) : (r.admitNext session).Numbered := by
  unfold Registry.admitNext
  split
  · exact h
  · exact h.setProgress _ _

theorem admitNext_frame (r : Registry) (session : Nat) :
    (r.admitNext session).depth = r.depth ∧ (r.admitNext session).fresh = r.fresh ∧
      (r.admitNext session).queue = r.queue ∧ (r.admitNext session).isOpen = r.isOpen := by
  unfold admitNext
  split <;> exact ⟨rfl, rfl, rfl, rfl⟩

/-! ### A send is over -/

def without (r : Registry) (id : Nat) : Registry :=
  { r with sends := r.sends.filter (·.request.id ≠ id) }

theorem finish_cases (r : Registry) (id : Nat) :
    (r.send? id = none ∧ r.finish id = r) ∨ ∃ x, r.send? id = some x ∧
      (x.progress = .admitted ∧ r.finish id = (r.without id).admitNext x.session ∨
        x.progress ≠ .admitted ∧ r.finish id = r.without id) := by
  unfold finish
  split
  next missing => exact .inl ⟨missing, rfl⟩
  next x found =>
    refine .inr ⟨x, found, ?_⟩
    by_cases admitted : x.progress = .admitted
    · exact .inl ⟨admitted, if_pos admitted⟩
    · exact .inr ⟨admitted, if_neg admitted⟩

theorem send?_without (r : Registry) (id i : Nat) :
    (r.without id).send? i = if i = id then none else r.send? i := by
  unfold without send?
  rw [List.find?_filter]
  split
  next here =>
    subst here
    refine List.find?_eq_none.2 fun x _ => ?_
    simp
  next there =>
    congr 1
    funext x
    by_cases same : x.request.id = i
    · simp [same, there]
    · simp [same]

theorem Numbered.without (h : r.Numbered) (id : Nat) : (r.without id).Numbered :=
  ⟨fun x mem => h.sends x (List.mem_filter.1 mem).1, h.sessions,
    h.distinct.sublist (List.filter_sublist.map _)⟩

theorem kept_without (h : r.Numbered) (found : r.send? id = some x) (session : Nat) :
    (r.without id).kept session +
      (if x.session = session ∧ x.progress = .admitted then 1 else 0) = r.kept session := by
  obtain ⟨before, after, split, apartBefore, apartAfter⟩ := split_of_send? h found
  have others : ∀ sends : List Send, (∀ y ∈ sends, y.request.id ≠ id) →
      sends.filter (·.request.id ≠ id) = sends :=
    fun sends away => List.filter_eq_self.2 fun y mem => by simpa using away y mem
  unfold kept Registry.without
  rw [split, List.filter_append, List.filter_cons_of_neg (by simp [id_of_send? found]),
    others before apartBefore, others after apartAfter]
  simp only [List.countP_append, List.countP_cons, decide_eq_true_eq]
  omega

theorem finish_frame (r : Registry) (id : Nat) :
    (r.finish id).depth = r.depth ∧ (r.finish id).fresh = r.fresh ∧
      (r.finish id).queue = r.queue ∧ (r.finish id).isOpen = r.isOpen := by
  rcases finish_cases r id with ⟨-, same⟩ | ⟨x, -, ⟨-, same⟩ | ⟨-, same⟩⟩ <;>
    rw [same]
  · exact ⟨rfl, rfl, rfl, rfl⟩
  · exact admitNext_frame (r.without id) x.session
  · exact ⟨rfl, rfl, rfl, rfl⟩

theorem Numbered.finish (h : r.Numbered) (id : Nat) : (r.finish id).Numbered := by
  rcases finish_cases r id with ⟨-, same⟩ | ⟨x, -, ⟨-, same⟩ | ⟨-, same⟩⟩ <;>
    rw [same]
  · exact h
  · exact (h.without id).admitNext _
  · exact h.without id

theorem send?_finish (h : r.Numbered) (id : Nat) : (r.finish id).send? id = none := by
  rcases finish_cases r id with ⟨missing, same⟩ | ⟨x, -, ⟨-, same⟩ | ⟨-, same⟩⟩ <;>
    rw [same]
  · exact missing
  · have gone : (r.without id).send? id = none := by rw [send?_without, if_pos rfl]
    rcases promoted_admitNext (h.without id) x.session id with same | ⟨y, found, -⟩
    · rw [same, gone]
    · rw [gone] at found
      cases found
  · rw [send?_without, if_pos rfl]

theorem promoted_finish (h : r.Numbered) (ne : i ≠ id) :
    Promoted (r.send? i) ((r.finish id).send? i) := by
  rcases finish_cases r id with ⟨-, same⟩ | ⟨x, -, ⟨-, same⟩ | ⟨-, same⟩⟩ <;>
    rw [same]
  · exact .inl rfl
  · have promoted := promoted_admitNext (h.without id) x.session i
    rwa [send?_without, if_neg ne] at promoted
  · exact .inl (by rw [send?_without, if_neg ne])

theorem Bounded.finish (bounded : r.Bounded) (h : r.Numbered) (id : Nat) :
    (r.finish id).Bounded := by
  intro session
  have room := bounded session
  obtain ⟨depth, -, queue, -⟩ := finish_frame r id
  rw [depth, queue]
  rcases finish_cases r id with
    ⟨-, same⟩ | ⟨x, found, ⟨admitted, same⟩ | ⟨-, same⟩⟩ <;> rw [same]
  · exact room
  · have fewer := kept_without h found session
    have more := kept_admitNext (h.without id) x.session session
    simp only [admitted, and_true, eq_comm (a := x.session)] at fewer
    omega
  · have fewer := kept_without h found session
    omega

/-! ### A send begins, and goes on -/

theorem queue_updateSession {f : Session → Session} (keeps : ∀ s, (f s).id = s.id)
    (r : Registry) (session i : Nat) : (r.updateSession session f).queue i =
      if i = session then ((r.session? i).map fun s => (f s).queue).getD [] else r.queue i := by
  unfold queue
  rw [session?_updateSession keeps]
  split <;> simp [Function.comp_def]

theorem isOpen_updateSession {f : Session → Session} (keeps : ∀ s, (f s).id = s.id)
    (r : Registry) (session i : Nat) : (r.updateSession session f).isOpen i =
      if i = session then (r.session? i).any fun s => (f s).alive else r.isOpen i := by
  unfold isOpen
  rw [session?_updateSession keeps]
  split
  · rw [Option.any_map]
  · rfl

theorem session?_of_isOpen (h : r.isOpen session = true) : ∃ s, r.session? session = some s := by
  obtain ⟨s, found, -⟩ := (Option.any_eq_true ..).1 h
  exact ⟨s, found⟩

theorem fills_enqueue (h : r.isOpen x.session = true) :
    Fills r (r.enqueue x) x.session x.request true := by
  obtain ⟨s, found⟩ := session?_of_isOpen h
  intro i
  change (r.updateSession x.session fun s => { s with queue := s.queue ++ [x.request] }).queue i = _
  simp only [queue_updateSession, implies_true, and_true]
  split
  next here =>
    subst here
    simp [found, queue]
  · rfl

theorem isOpen_enqueue (r : Registry) (x : Send) : (r.enqueue x).isOpen = r.isOpen := by
  funext i
  change (r.updateSession x.session fun s =>
    { s with queue := s.queue ++ [x.request] }).isOpen i = _
  simp only [isOpen_updateSession, implies_true]
  split <;> rfl

theorem Numbered.enqueue (h : r.Numbered) (x : Send) : (r.enqueue x).Numbered :=
  (h.updateSession (by exact fun _ => rfl) _).setProgress _ _

theorem send?_enqueue (r : Registry) (x : Send) (i : Nat) : (r.enqueue x).send? i =
    if i = x.request.id then (r.send? i).map ({ · with progress := .queued }) else r.send? i :=
  send?_setProgress ..

theorem kept_enqueue (h : r.Numbered) (found : r.send? x.request.id = some x) (session : Nat) :
    (r.enqueue x).kept session + (if x.session = session ∧ x.progress = .admitted then 1 else 0) =
      r.kept session := by
  have counted := kept_setProgress h found .queued session
  simp only [reduceCtorEq, and_false, ite_false, Nat.add_zero] at counted
  exact counted

def adding (r : Registry) (x : Send) : Registry :=
  { r with fresh := r.fresh + 1, sends := r.sends ++ [x] }

theorem send?_adding (h : r.Numbered) (new : x.request.id = r.fresh) (i : Nat) :
    (r.adding x).send? i = if i = r.fresh then some x else r.send? i := by
  unfold adding send?
  rw [List.find?_append]
  split
  next here =>
    have missing : r.sends.find? (fun y => decide (y.request.id = i)) = none :=
      List.find?_eq_none.2 fun y mem => by simpa [here] using Nat.ne_of_lt (h.sends y mem)
    rw [missing]
    simp [new, here]
  next there =>
    have other : ¬ r.fresh = i := fun same => there same.symm
    simp [new, other]

theorem Numbered.adding (h : r.Numbered) (new : x.request.id = r.fresh) :
    (r.adding x).Numbered := by
  refine ⟨fun y mem => ?_, fun s mem => Nat.lt_succ_of_lt (h.sessions s mem), ?_⟩
  · rcases List.mem_append.1 mem with mem | mem
    · exact Nat.lt_succ_of_lt (h.sends y mem)
    · rw [List.mem_singleton.1 mem, new]
      exact Nat.lt_succ_self _
  · simp only [Registry.adding, List.map_append, List.map_cons, List.map_nil]
    refine List.nodup_append.2 ⟨h.distinct, List.nodup_singleton _, ?_⟩
    intro id mem id' mem' same
    obtain ⟨y, memY, rfl⟩ := List.mem_map.1 mem
    rw [List.mem_singleton.1 mem', new] at same
    exact Nat.ne_of_lt (h.sends y memY) same

theorem kept_adding (unplaced : x.progress ≠ .admitted) (session : Nat) :
    (r.adding x).kept session = r.kept session := by
  simp [kept, adding, unplaced]

/-- A send of a command to a session. Its request has entered the queue, or the send waits or is
lost. -/
structure Begins (r : Registry) (envelope : Envelope) (session : Nat)
    (entered : Bool) (r' : Registry) :
    Prop where
  depth : r'.depth = r.depth
  fresh : r'.fresh = r.fresh + 1
  isOpen : r'.isOpen = r.isOpen
  numbered : r'.Numbered
  bounded : r.Bounded → r'.Bounded
  fills : Fills r r' session ⟨r.fresh, envelope⟩ entered
  room : entered = true → r.isOpen session = true
  sends : ∃ p,
    (∀ i, r'.send? i = if i = r.fresh then some ⟨⟨r.fresh, envelope⟩, session, p⟩
      else r.send? i) ∧
    if entered then p = .queued else p = .waiting ∨ p = .lost .sessionClosed

theorem Begins.placed (h : r.Numbered) (new : x.request = ⟨r.fresh, envelope⟩)
    (unplaced : x.progress ≠ .admitted) (opens : r.isOpen x.session = true)
    (room : (r.queue x.session).length + r.kept x.session < r.depth) :
    Begins r envelope x.session true ((r.adding x).enqueue x) := by
  have named : x.request.id = r.fresh := by rw [new]
  have numbered := h.adding named
  have found : (r.adding x).send? x.request.id = some x := by
    rw [send?_adding h named, if_pos named]
  have fills : Fills r ((r.adding x).enqueue x) x.session x.request true :=
    fills_enqueue (r := r.adding x) opens
  refine ⟨rfl, rfl, isOpen_enqueue _ _, numbered.enqueue x, fun bounded i => ?_, new ▸ fills,
    fun _ => opens, .queued, fun i => ?_, rfl⟩
  · have counted := kept_enqueue numbered found i
    rw [kept_adding unplaced, if_neg fun both => unplaced both.2, Nat.add_zero] at counted
    rw [fills i, counted]
    split
    next here =>
      rw [here.1, List.length_append, List.length_singleton]
      show _ ≤ r.depth
      omega
    · exact bounded i
  · rw [send?_enqueue, named, send?_adding h named]
    split
    · rw [Option.map_some, new]
    · rfl

theorem Begins.unplaced (h : r.Numbered) (new : x.request = ⟨r.fresh, envelope⟩)
    (outside : x.progress = .waiting ∨ x.progress = .lost .sessionClosed) :
    Begins r envelope x.session false (r.adding x) := by
  have named : x.request.id = r.fresh := by rw [new]
  refine ⟨rfl, rfl, rfl, h.adding named, fun bounded i => ?_, fun i => ?_, nofun, x.progress,
    fun i => ?_, outside⟩
  · rw [kept_adding (by rcases outside with same | same <;> rw [same] <;> exact nofun)]
    exact bounded i
  · rw [if_neg (by simp)]
    rfl
  · rw [send?_adding h named, ← new]

theorem begins (h : r.Numbered) (begun : r.begin envelope = (.ok id, r')) :
    id = r.fresh ∧ ∃ session, r.link? envelope.host = some session ∧ session < r.fresh ∧
      Begins r envelope session (grown r r' session) r' := by
  unfold Registry.begin at begun
  split at begun
  · cases begun
  next s found =>
    obtain ⟨session, linked, found⟩ := Option.bind_eq_some_iff.1 found
    have named := id_of_session? found
    have opens : r.isOpen session = s.alive := by simp [isOpen, found]
    obtain ⟨made, rest⟩ := Prod.mk.inj begun
    subst named
    refine ⟨(Except.ok.inj made).symm, s.id, linked,
      h.sessions s (List.mem_of_find?_eq_some found), ?_⟩
    let x : Send :=
      ⟨⟨r.fresh, envelope⟩, s.id, if s.alive then .waiting else .lost .sessionClosed⟩
    split at rest
    next room =>
      obtain ⟨alive, room⟩ := Bool.and_eq_true_iff.1 room
      have begins : Begins r envelope s.id true r' := by
        rw [← rest]
        refine Begins.placed (x := x) h rfl ?_ (opens.trans alive) ?_
        · simp only [x, alive, ite_true]
          exact nofun
        · have room := of_decide_eq_true room
          rwa [placesTaken, ← List.countP_eq_length_filter, ← queue_of_session? found] at room
      rwa [begins.fills.grown]
    next noRoom =>
      have begins : Begins r envelope s.id false r' := by
        rw [← rest]
        refine Begins.unplaced (x := x) h rfl ?_
        simp only [x]
        split
        · exact .inl rfl
        · exact .inr rfl
      rwa [begins.fills.grown]

theorem advance_cases (found : r.send? id = some x) :
    (r.advance id = r ∧ x.progress ≠ .admitted) ∨
    ((x.progress = .waiting ∨ x.progress = .admitted) ∧
      r.advance id = r.setProgress id (.lost .sessionClosed)) ∨
    (x.progress = .admitted ∧ r.isOpen x.session = true ∧ r.advance id = r.enqueue x) := by
  simp only [advance, found]
  cases opens : (r.session? x.session).any (·.alive) with
  | true =>
    split
    next waits => exact .inl ⟨rfl, by rw [waits]; exact nofun⟩
    next admitted => exact .inr (.inr ⟨admitted, opens, rfl⟩)
    all_goals next settled => exact .inl ⟨rfl, by rw [settled]; exact nofun⟩
  | false =>
    split
    next waits => exact .inr (.inl ⟨.inl waits, rfl⟩)
    next admitted => exact .inr (.inl ⟨.inr admitted, rfl⟩)
    all_goals next settled => exact .inl ⟨rfl, by rw [settled]; exact nofun⟩

/-- A send goes on by itself: its request enters the queue, or it finds the session closed, or
nothing has changed for it. -/
structure Goes (r : Registry) (id : Nat) (x : Send) (entered : Bool)
    (p : Progress) (r' : Registry) :
    Prop where
  depth : r'.depth = r.depth
  fresh : r'.fresh = r.fresh
  isOpen : r'.isOpen = r.isOpen
  numbered : r'.Numbered
  bounded : r.Bounded → r'.Bounded
  fills : Fills r r' x.session x.request entered
  sends : ∀ i, r'.send? i = if i = id then some { x with progress := p } else r.send? i
  course : if entered then x.progress = .admitted ∧ r.isOpen x.session = true ∧ p = .queued
    else (p = x.progress ∧ p ≠ .admitted) ∨
      (x.progress = .waiting ∨ x.progress = .admitted) ∧ p = .lost .sessionClosed

theorem Goes.address {entered : Bool} (h : Goes r id x entered p r')
    (found : r.send? id = some x) (i : Nat) :
    (r'.send? i).map address = (r.send? i).map address := by
  rw [h.sends]
  split
  next here =>
    rw [here, found]
    rfl
  · rfl

theorem goes_advance (h : r.Numbered) (found : r.send? id = some x) :
    ∃ entered p, Goes r id x entered p (r.advance id) := by
  have named := id_of_send? found
  rcases advance_cases found with ⟨same, unplaced⟩ | ⟨waited, same⟩
    | ⟨admitted, opens, same⟩ <;> rw [same]
  · refine ⟨false, x.progress, rfl, rfl, rfl, h, fun bounded => bounded,
      fun i => by simp, fun i => ?_, .inl ⟨rfl, unplaced⟩⟩
    split
    next here => rw [here, found]
    · rfl
  · refine ⟨false, .lost .sessionClosed, rfl, rfl, rfl, h.setProgress _ _, fun bounded i => ?_,
      fun i => (if_neg (by simp)).symm, fun i => ?_, .inr ⟨waited, rfl⟩⟩
    · have counted := kept_setProgress h found (.lost .sessionClosed) i
      have room := bounded i
      simp only [reduceCtorEq, and_false, ite_false, Nat.add_zero] at counted
      show (r.queue i).length + _ ≤ r.depth
      omega
    · rw [send?_setProgress]
      split
      next here => rw [here, found, Option.map_some]
      · rfl
  · subst named
    have fills := fills_enqueue opens
    refine ⟨true, .queued, rfl, rfl, isOpen_enqueue _ _, h.enqueue x, fun bounded i => ?_, fills,
      fun i => ?_, admitted, opens, rfl⟩
    · have counted := kept_enqueue h found i
      have room := bounded i
      rw [fills i]
      show _ ≤ r.depth
      simp only [admitted, and_true] at counted ⊢
      by_cases here : i = x.session
      · rw [if_pos here.symm] at counted
        rw [if_pos here, List.length_append, List.length_singleton]
        omega
      · rw [if_neg fun same => here same.symm] at counted
        rw [if_neg here]
        omega
    · rw [send?_enqueue]
      split
      next here => rw [here, found, Option.map_some]
      · rfl

/-! ### A host reads, answers and stops -/

structure Reads (r : Registry) (session : Nat) (request : Request) (r' : Registry) : Prop where
  depth : r'.depth = r.depth
  fresh : r'.fresh = r.fresh
  isOpen : r'.isOpen = r.isOpen
  numbered : r'.Numbered
  bounded : r.Bounded → r'.Bounded
  first : r.queue session = request :: r'.queue session
  others : ∀ i ≠ session, r'.queue i = r.queue i
  sends : ∀ i, Promoted (r.send? i) (r'.send? i)

theorem reads (h : r.Numbered) (received : r.receive session = (some request, r')) :
    Reads r session request r' := by
  unfold receive at received
  split at received
  · cases received
  next s found =>
    split at received
    · cases received
    next first rest queued =>
      obtain ⟨same, made⟩ := Prod.mk.inj received
      cases same
      let emptied := r.updateSession session fun s => { s with queue := rest }
      have numbered : emptied.Numbered := h.updateSession (by exact fun _ => rfl) _
      have queue : ∀ i, emptied.queue i = if i = session then rest else r.queue i := by
        intro i
        simp only [emptied, queue_updateSession, implies_true]
        split
        next here => simp [here, found]
        · rfl
      have opens : emptied.isOpen = r.isOpen := by
        funext i
        simp only [emptied, isOpen_updateSession, implies_true]
        split <;> rfl
      obtain ⟨depth, fresh, queues, opened⟩ := admitNext_frame emptied session
      have first : r.queue session = request :: rest := by rw [queue_of_session? found, queued]
      have made' : r' = emptied.admitNext session := made.symm
      rw [made']
      refine ⟨depth, fresh, opened.trans opens, numbered.admitNext _, fun bounded i => ?_, ?_,
        fun i other => ?_, promoted_admitNext numbered session⟩
      · have room := bounded i
        have more := kept_admitNext numbered session i
        rw [depth, queues, queue i]
        change _ ≤ r.kept i + _ at more
        show _ ≤ r.depth
        by_cases here : i = session
        · rw [here, first, List.length_cons] at room
          rw [if_pos here] at more ⊢
          rw [here] at more ⊢
          omega
        · rw [if_neg here] at more ⊢
          omega
      · rw [queues, queue, if_pos rfl, first]
      · rw [queues, queue, if_neg other]

theorem begin_refused {failure : Failure} (refused : (r.begin envelope).1 = .error failure) :
    (r.begin envelope).2 = r := by
  unfold Registry.begin at refused ⊢
  split at refused
  · simp
  · cases refused

theorem respond_queued (found : r.send? id = some x)
    (waits : x.progress = .queued) (answer : Answer) :
    r.respond id answer = (true, r.setProgress id (.answered answer)) := by
  simp [respond, found, waits]

theorem respond_missing (missing : r.send? id = none) (answer : Answer) :
    r.respond id answer = (false, r) := by
  simp [respond, missing]

theorem respond_cases (r : Registry) (id : Nat) (answer : Answer) :
    r.respond id answer = (false, r) ∨ ∃ x, r.send? id = some x ∧ x.progress = .queued ∧
      r.respond id answer = (true, r.setProgress id (.answered answer)) := by
  cases found : r.send? id with
  | none => exact .inl (respond_missing found answer)
  | some x =>
    by_cases waits : x.progress = .queued
    · exact .inr ⟨x, rfl, waits, respond_queued found waits answer⟩
    · exact .inl (by simp [respond, found, waits])

theorem drop_queued (found : r.send? id = some x) (waits : x.progress = .queued) :
    r.drop id = r.setProgress id (.lost .requestDropped) := by
  simp [drop, found, waits]

theorem drop_missing (missing : r.send? id = none) : r.drop id = r := by
  simp [drop, missing]

theorem drop_cases (r : Registry) (id : Nat) :
    r.drop id = r ∨ ∃ x, r.send? id = some x ∧ x.progress = .queued ∧
      r.drop id = r.setProgress id (.lost .requestDropped) := by
  cases found : r.send? id with
  | none => exact .inl (drop_missing found)
  | some x =>
    by_cases waits : x.progress = .queued
    · exact .inr ⟨x, rfl, waits, drop_queued found waits⟩
    · exact .inl (by simp [drop, found, waits])

/-- A send comes from being queued to being over. -/
theorem Bounded.settle (bounded : r.Bounded) (h : r.Numbered) (found : r.send? id = some x)
    (settled : p ≠ .admitted) : (r.setProgress id p).Bounded := by
  intro i
  have counted := kept_setProgress h found p i
  have room := bounded i
  simp only [settled, and_false, ite_false, Nat.add_zero] at counted
  show (r.queue i).length + _ ≤ r.depth
  omega

/-- What is known of a send whose request may have been dropped. -/
def Abandoned (before after : Option Send) : Prop :=
  after = before ∨ ∃ x, before = some x ∧ x.progress = .queued ∧
    after = some { x with progress := .lost .requestDropped }

theorem Abandoned.address {before after : Option Send} (h : Abandoned before after) :
    after.map address = before.map address := by
  rcases h with same | ⟨x, found, -, same⟩
  · rw [same]
  · rw [same, found]
    rfl

theorem address_setProgress (r : Registry) (id : Nat) (p : Progress) (i : Nat) :
    ((r.setProgress id p).send? i).map address = (r.send? i).map address := by
  rw [send?_setProgress]
  split
  · rw [Option.map_map]
    rfl
  · rfl

structure Closes (r : Registry) (session : Nat) (r' : Registry) : Prop where
  depth : r'.depth = r.depth
  fresh : r'.fresh = r.fresh
  isOpen : ∀ i, r'.isOpen i = true → r.isOpen i = true ∧ i ≠ session
  numbered : r'.Numbered
  bounded : r.Bounded → r'.Bounded
  queue : ∀ i, r'.queue i = if i = session then [] else r.queue i
  sends : ∀ i, Abandoned (r.send? i) (r'.send? i)
  spared : ∀ i, (∀ request ∈ r.queue session, request.id ≠ i) → r'.send? i = r.send? i

theorem drops (h : r.Numbered) (requests : List Request) :
    let r' := requests.foldl (fun r request => r.drop request.id) r
    r'.depth = r.depth ∧ r'.fresh = r.fresh ∧ r'.sessions = r.sessions ∧ r'.Numbered ∧
      (r.Bounded → r'.Bounded) ∧ (∀ i, Abandoned (r.send? i) (r'.send? i)) ∧
      ∀ i, (∀ request ∈ requests, request.id ≠ i) → r'.send? i = r.send? i := by
  induction requests generalizing r with
  | nil => exact ⟨rfl, rfl, rfl, h, id, fun _ => .inl rfl, fun _ _ => rfl⟩
  | cons request requests ih =>
    rw [List.foldl_cons]
    rcases drop_cases r request.id with same | ⟨x, found, waits, dropped⟩
    · rw [same]
      obtain ⟨depth, fresh, sessions, numbered, bounded, sends, spared⟩ := ih h
      exact ⟨depth, fresh, sessions, numbered, bounded, sends,
        fun i away => spared i fun other mem => away other (List.mem_cons_of_mem _ mem)⟩
    · rw [dropped]
      obtain ⟨depth, fresh, sessions, numbered, bounded, sends, spared⟩ :=
        ih (h.setProgress request.id (.lost .requestDropped))
      have moved := send?_setProgress r request.id (.lost .requestDropped)
      refine ⟨depth, fresh, sessions, numbered, fun room => bounded (room.settle h found nofun),
        fun i => ?_, fun i away => ?_⟩
      · by_cases here : i = request.id
        · subst here
          have gone := sends request.id
          rw [moved, if_pos rfl, found, Option.map_some] at gone
          rw [found]
          rcases gone with same | ⟨y, same, waits', -⟩
          · exact .inr ⟨x, rfl, waits, same⟩
          · cases same
            cases waits'
        · have rest := sends i
          rwa [moved, if_neg here] at rest
      · rw [spared i fun other mem => away other (List.mem_cons_of_mem _ mem), moved,
          if_neg fun same => away request List.mem_cons_self same.symm]

theorem closes (h : r.Numbered) (session : Nat) : Closes r session (r.close session) := by
  have dropped := drops h (r.queue session)
  have made : r.close session =
    ((r.queue session).foldl (fun r request => r.drop request.id) r).updateSession
      session fun s => { s with alive := false, queue := [] } := rfl
  generalize (r.queue session).foldl (fun r request => r.drop request.id) r = rest at dropped made
  obtain ⟨depth, fresh, sessions, numbered, bounded, sends, spared⟩ := dropped
  have sameSession : ∀ i, rest.session? i = r.session? i :=
    fun i => by rw [session?, sessions, session?]
  have queue : ∀ i, (r.close session).queue i = if i = session then [] else r.queue i := by
    intro i
    simp only [made, queue_updateSession, implies_true, sameSession]
    split
    · cases r.session? i <;> rfl
    · simp only [Registry.queue, sameSession]
  rw [made] at queue ⊢
  refine ⟨depth, fresh, fun i opens => ?_, numbered.updateSession (by exact fun _ => rfl) _,
    fun room i => ?_, queue, sends, spared⟩
  · simp only [isOpen_updateSession, implies_true, sameSession] at opens
    split at opens
    · cases found : r.session? i <;> simp [found] at opens
    next other => exact ⟨by simpa only [Registry.isOpen, sameSession] using opens, other⟩
  · have room := bounded room i
    simp only [Registry.queue, sameSession] at room
    rw [queue i]
    change _ + rest.kept i ≤ rest.depth
    split
    · exact Nat.le_trans (Nat.add_le_add_right (Nat.zero_le _) _) room
    · exact room

/-! ### Sessions come and go -/

structure Opens (r r' : Registry) : Prop where
  depth : r'.depth = r.depth
  fresh : r'.fresh = r.fresh + 1
  isOpen : ∀ i, i < r.fresh → r'.isOpen i = r.isOpen i
  numbered : r'.Numbered
  bounded : r.Bounded → r'.Bounded
  queue : r'.queue = r.queue
  sends : r'.send? = r.send?

theorem session?_connect (h : r.Numbered) (host : HostId) (i : Nat) :
    (r.connect host).2.session? i = if i = r.fresh then some ⟨r.fresh, host, true, []⟩
      else r.session? i := by
  unfold connect session?
  rw [List.find?_append]
  split
  next here =>
    have missing : r.sessions.find? (fun s => decide (s.id = i)) = none :=
      List.find?_eq_none.2 fun s mem => by simpa [here] using Nat.ne_of_lt (h.sessions s mem)
    rw [missing]
    simp [here]
  next there =>
    have other : ¬ r.fresh = i := fun same => there same.symm
    simp [other]

theorem opens (h : r.Numbered) (host : HostId) : Opens r (r.connect host).2 := by
  have queue : (r.connect host).2.queue = r.queue := by
    funext i
    by_cases here : i = r.fresh
    · rw [queue_fresh h (Nat.le_of_eq here.symm)]
      simp [Registry.queue, session?_connect h, here]
    · simp [Registry.queue, session?_connect h, here]
  refine ⟨rfl, rfl, fun i old => ?_,
    ⟨fun x mem => Nat.lt_succ_of_lt (h.sends x mem), fun s mem => ?_,
      h.distinct⟩, fun bounded i => ?_, queue, rfl⟩
  · simp only [Registry.isOpen, session?_connect h, if_neg (Nat.ne_of_lt old)]
  · rcases List.mem_append.1 mem with mem | mem
    · exact Nat.lt_succ_of_lt (h.sessions s mem)
    · rw [List.mem_singleton.1 mem]
      exact Nat.lt_succ_self _
  · rw [queue]
    exact bounded i

end ControlPlane.Agent.Registry

namespace ControlPlane.Agent.Sending
open Registry
variable {r r' : Registry} {id now deadline : Nat} {envelope : Envelope} {x : Send}
  {result : Except Failure Answer} {sending : Sending}

theorem result?_of_send? (found : r.send? id = some x) : r.result? id =
    match x.progress with
    | .answered answer => some (.ok answer)
    | .lost cause => some (.error (.agentUnavailable x.request.envelope.host cause))
    | .waiting | .admitted | .queued => none := by
  obtain ⟨request, session, progress⟩ := x
  rw [result?, found]
  cases progress <;> rfl

theorem poll_answered {answer : Answer} (found : r.send? id = some x)
    (settled : x.progress = .answered answer) :
    ((pending id envelope deadline).poll r now).1 = ended (.ok answer) := by
  rcases advance_cases found with ⟨same, -⟩ | ⟨waited, -⟩ | ⟨admitted, -⟩
  · simp only [poll, same, result?_of_send? found, settled]
  · rw [settled] at waited
    rcases waited with same | same <;> cases same
  · rw [settled] at admitted
    cases admitted

/-- A sender looks in vain: it has time left, and its send has not come to anything. -/
theorem poll_pending (h : r.Numbered) (found : r.send? id = some x)
    (polled : (pending id envelope deadline).poll r now = (pending id envelope deadline, r')) :
    now < deadline ∧ ∃ entered p, Goes r id x entered p r' ∧
      (∀ answer, p ≠ .answered answer) ∧ ∀ cause, p ≠ .lost cause := by
  obtain ⟨entered, p, goes⟩ := goes_advance h found
  have moved : (r.advance id).send? id = some { x with progress := p } := by
    rw [goes.sends, if_pos rfl]
  simp only [poll, result?_of_send? moved] at polled
  cases p with
  | answered answer => cases polled
  | lost cause => cases polled
  | _ =>
    simp only at polled
    split at polled
    · cases polled
    next early =>
      obtain ⟨-, rfl⟩ := Prod.mk.inj polled
      exact ⟨Nat.lt_of_not_le early, entered, _, goes, nofun, nofun⟩

/-- A send ends: it has been answered, or it is lost, or its sender has no time left. -/
theorem poll_ended (h : r.Numbered) (found : r.send? id = some x)
    (polled : (pending id envelope deadline).poll r now = (ended result, r')) :
    ∃ entered p r₁, Goes r id x entered p r₁ ∧ r' = r₁.finish id ∧
      (∀ answer, p = .answered answer ↔ result = .ok answer) ∧
      (p = .queued → deadline ≤ now) := by
  obtain ⟨entered, p, goes⟩ := goes_advance h found
  have moved : (r.advance id).send? id = some { x with progress := p } := by
    rw [goes.sends, if_pos rfl]
  refine ⟨entered, p, _, goes, ?_⟩
  simp only [poll, result?_of_send? moved] at polled
  cases p with
  | answered answer =>
    obtain ⟨same, rfl⟩ := Prod.mk.inj polled
    cases same
    exact ⟨rfl, fun answer' => by simp, nofun⟩
  | lost cause =>
    obtain ⟨same, rfl⟩ := Prod.mk.inj polled
    cases same
    exact ⟨rfl, fun answer' => by simp, nofun⟩
  | _ =>
    simp only at polled
    split at polled
    next late =>
      obtain ⟨same, rfl⟩ := Prod.mk.inj polled
      cases same
      exact ⟨rfl, fun answer' => by simp, fun _ => late⟩
    · cases polled

end ControlPlane.Agent.Sending
