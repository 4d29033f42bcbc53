import ControlPlane.Proofs.Agent.Traffic

/-!
# Which session a host is linked to

A host is linked to the session that it last connected with, until it is cut off or connects again.
This is read off a history, and it is what the table of links says.
-/

namespace ControlPlane.Agent.Registry
variable {r : Registry}

theorem links_drop (r : Registry) (id : Nat) : (r.drop id).links = r.links := by
  unfold drop
  split
  · split <;> rfl
  · rfl

theorem links_close (r : Registry) (session : Nat) : (r.close session).links = r.links := by
  have dropped : ∀ (requests : List Request) (r : Registry),
      (requests.foldl (fun r request => r.drop request.id) r).links = r.links := by
    intro requests
    induction requests with
    | nil => exact fun _ => rfl
    | cons request requests ih => exact fun r => (ih _).trans (links_drop ..)
  exact dropped ..

theorem links_begin (r : Registry) (envelope : Envelope) :
    (r.begin envelope).2.links = r.links := by
  unfold begin
  split
  · rfl
  · dsimp only
    split <;> rfl

theorem links_advance (r : Registry) (id : Nat) : (r.advance id).links = r.links := by
  unfold advance
  split
  · rfl
  · dsimp only
    split
    · split <;> rfl
    · split <;> rfl
    all_goals rfl

theorem links_admitNext (r : Registry) (session : Nat) : (r.admitNext session).links = r.links := by
  unfold admitNext
  split <;> rfl

theorem links_finish (r : Registry) (id : Nat) : (r.finish id).links = r.links := by
  unfold finish
  split
  · rfl
  · dsimp only
    split
    · exact links_admitNext ..
    · rfl

theorem links_poll (r : Registry) (now : Nat) (sending : Sending) :
    (sending.poll r now).2.links = r.links := by
  cases sending with
  | ended result => rfl
  | pending id envelope deadline =>
    simp only [Sending.poll]
    split
    · exact (links_finish ..).trans (links_advance ..)
    · split
      · exact (links_finish ..).trans (links_advance ..)
      · exact links_advance ..

theorem links_receive (r : Registry) (session : Nat) : (r.receive session).2.links = r.links := by
  unfold receive
  split
  · rfl
  · split
    · rfl
    · exact links_admitNext ..

theorem links_respond (r : Registry) (id : Nat) (answer : Answer) :
    (r.respond id answer).2.links = r.links := by
  unfold respond
  split
  · split <;> rfl
  · rfl

theorem link?_connect (r : Registry) (other host : HostId) : (r.connect other).2.link? host =
    if other = host then some r.fresh else r.link? host := by
  simp only [link?, connect, Table.get?_insert, Keyed.key, Id.key_inj]
  split <;> rfl

theorem link?_disconnect (r : Registry) (other host : HostId) :
    (r.disconnect other).link? host = if other = host then none else r.link? host := by
  simp only [link?, disconnect, Table.get?_erase, Id.key_inj]
  split <;> rfl

end ControlPlane.Agent.Registry

namespace ControlPlane.Agent.Traffic
variable {depth : Nat} {log : List Event} {t t' : Traffic} {e : Event} {host : HostId}

def Event.relink (host : HostId) (link : Option Nat) : Event → Option Nat
  | connected other session => if other = host then some session else link
  | cut other => if other = host then none else link
  | _ => link

/-- The session that a host is linked to after some events. -/
def linked? (host : HostId) (log : List Event) : Option Nat := log.foldl (Event.relink host) none

theorem Step.link? (step : Step t e t') (host : HostId) :
    t'.registry.link? host = e.relink host (t.registry.link? host) := by
  have same {r : Registry} (h : r.links = t.registry.links) : r.link? host =
    t.registry.link? host :=
    congrArg (fun links => (links.get? host.key).map (·.session)) h
  cases step with
  | connect other => exact Registry.link?_connect ..
  | disconnect other => exact Registry.link?_disconnect ..
  | close session => exact same (Registry.links_close ..)
  | refuse envelope refused => exact same (Registry.links_begin ..)
  | begin envelope later begun linked => exact same (Registry.links_begin ..)
  | wait mem later pending => exact same (Registry.links_poll ..)
  | finish split later ended => exact same (Registry.links_poll ..)
  | read session received => exact same (Registry.links_receive ..)
  | respond split answer later => exact same (Registry.links_respond ..)
  | drop split => exact same (Registry.links_drop ..)

/-- The table of links says what has happened to the host last. -/
theorem History.link?_eq (history : History depth log t) (host : HostId) :
    t.registry.link? host = linked? host log := by
  induction history with
  | start => rfl
  | step past step ih =>
    rw [step.link? host, ih, linked?, linked?, List.foldl_append]
    rfl

end ControlPlane.Agent.Traffic
