import ControlPlane.Agent.Envelope
import ControlPlane.Proofs.Codec.Framing
import ControlPlane.Proofs.Text.Numerals

/-!
# What is written down is read back

The bodies of commands, the replies to them and the records of the store are read back as what they
were, whatever stands behind them, and nothing is read if any part is missing.
-/

namespace ControlPlane

namespace Table
variable {α : Type} [Keyed α]
open Keyed

theorem insertRow_last {a : α} {rows : List α} (last : ∀ b ∈ rows, key b < key a) :
    insertRow a rows = rows ++ [a] := by
  induction rows with
  | nil => rfl
  | cons b rows ih =>
    have before := last b List.mem_cons_self
    rw [insertRow, if_neg (by omega), if_neg (by omega),
      ih fun c mem => last c (List.mem_cons_of_mem _ mem)]
    rfl

theorem rows_foldl_insert (t : Table α) (rows : List α)
    (later : (t.rows ++ rows).Pairwise (key · < key ·)) :
    (rows.foldl insert t).rows = t.rows ++ rows := by
  induction rows generalizing t with
  | nil => exact (List.append_nil _).symm
  | cons a rows ih =>
    have last : ∀ b ∈ t.rows, key b < key a := fun b mem =>
      (List.pairwise_append.1 later).2.2 b mem a List.mem_cons_self
    have placed : (t.insert a).rows = t.rows ++ [a] := insertRow_last last
    rw [List.foldl_cons, ih, placed, List.append_assoc, List.singleton_append]
    rwa [placed, List.append_assoc, List.singleton_append]

theorem ofList_rows (t : Table α) : ofList t.rows = t :=
  Table.ext (rows_foldl_insert empty t.rows t.ascending)

end Table

theorem Uuid.ofNat_toNat (u : Uuid) : ofNat u.toNat = u := by
  have high := u.hi.toNat_lt
  have low := u.lo.toNat_lt
  refine Uuid.ext (UInt64.toNat_inj.1 ?_) (UInt64.toNat_inj.1 ?_)
  · simp only [ofNat, toNat, UInt64.size, UInt64.toNat_ofNat']
    omega
  · simp only [ofNat, toNat, UInt64.size, UInt64.toNat_ofNat']
    omega

namespace Codec
open Agent

instance lawful_table {α : Type} [Keyed α] {c : Codec α} [Lawful c] [Solid c] :
    Lawful (table c) :=
  lawful_along Table.ofList_rows

instance lawful_id {e : Entity} : Lawful (id e) := lawful_along fun _ => rfl

instance solid_id {e : Entity} : Solid (id e) := inferInstanceAs (Solid (u64.along ..))

instance lawful_resources : Lawful resources := lawful_along fun _ => rfl

theorem ofLittleEndian_uuid (u : Uuid) : ofLittleEndian ((word 16).encode u.toNat) = u.toNat := by
  refine ofLittleEndian_littleEndian ?_
  have high := u.hi.toNat_lt
  have low := u.lo.toNat_lt
  simp only [Uuid.toNat, UInt64.size]
  omega

instance lawful_uuid : Lawful uuid := lawful_along? fun u => by
  rw [if_pos (by simp [word, length_littleEndian]), List.reverse_reverse, ofLittleEndian_uuid,
    Uuid.ofNat_toNat]

instance lawful_timestamp : Lawful timestamp := lawful_along? Timestamp.read?_write

section
variable {α : Type} [DecidableEq α] [Enumeration α]

theorem lawful_enumeration (few : (Enumeration.all : List α).length ≤ 256) :
    Lawful (enumeration α) :=
  lawful_choice (Nat.le_trans few (by decide))

end

instance lawful_state : Lawful (enumeration State) := lawful_enumeration (by decide)
instance lawful_role : Lawful (enumeration Role) := lawful_enumeration (by decide)
instance lawful_hostStatus : Lawful (enumeration HostStatus) := lawful_enumeration (by decide)
instance lawful_poolScope : Lawful (enumeration PoolScope) := lawful_enumeration (by decide)
instance lawful_powerState : Lawful (enumeration PowerState) := lawful_enumeration (by decide)
instance lawful_step : Lawful (enumeration Work.Step) := lawful_enumeration (by decide)
instance lawful_operation : Lawful (enumeration Work.Operation) := lawful_enumeration (by decide)

instance lawful_vm : Lawful vm := lawful_along fun _ => rfl
instance lawful_host : Lawful host := lawful_along fun _ => rfl
instance lawful_pool : Lawful pool := lawful_along fun _ => rfl
instance lawful_volume : Lawful volume := lawful_along fun _ => rfl

instance lawful_relocation : Lawful relocation := lawful_along fun _ => rfl
instance solid_relocation : Solid relocation := inferInstanceAs (Solid (Codec.along ..))

instance lawful_plan : Lawful plan := lawful_along fun _ => rfl
instance lawful_workItem : Lawful workItem := lawful_along fun _ => rfl

instance lawful_volumePath : Lawful volumePath := lawful_along fun _ => rfl
instance solid_volumePath : Solid volumePath := inferInstanceAs (Solid (Codec.along ..))

instance lawful_volumeTarget : Lawful volumeTarget := lawful_along fun _ => rfl
instance solid_volumeTarget : Solid volumeTarget := inferInstanceAs (Solid (Codec.along ..))

instance lawful_rendezvous : Lawful rendezvous := lawful_along fun _ => rfl

instance lawful_body (k : Kind) : Lawful (body k) := by
  unfold body
  cases k <;> exact lawful_along fun _ => rfl

instance lawful_reply (k : Kind) : Lawful (reply k) := by
  cases k with
  | checkState => exact lawful_powerState
  | migrateWithStorage => exact lawful_list
  | receive => exact lawful_rendezvous
  | complete => exact lawful_list
  | start | stop | migrate | send | cleanup | scale => exact lawful_unit

end Codec

open Agent Codec

/-- What is written down: the bodies of commands, the replies to them, and records. -/
inductive Form where
  | body (k : Kind) | reply (k : Kind) | resources | vm | host | pool | volume | plan | workItem

namespace Form

abbrev Value : Form → Type
  | body k => k.Body
  | reply k => k.Reply
  | resources => Resources
  | vm => Vm
  | host => Host
  | pool => Pool
  | volume => Volume
  | plan => Plan
  | workItem => Work.Item

def codec : (f : Form) → Codec f.Value
  | body k => Codec.body k
  | reply k => Codec.reply k
  | resources => Codec.resources
  | vm => Codec.vm
  | host => Codec.host
  | pool => Codec.pool
  | volume => Codec.volume
  | plan => Codec.plan
  | workItem => Codec.workItem

instance lawful_codec (f : Form) : Lawful f.codec := by
  cases f <;> unfold codec <;> infer_instance

/-- A value that was written down is found again in front of whatever follows, and bytes that break
off inside it are read as nothing at all. -/
theorem values_end_by_themselves (f : Form) (v : f.Value)
    (fits : (f.codec.encode v).length < UInt64.size) :
    (∀ t, f.codec.read? (f.codec.encode v ++ t) = some v) ∧
      ∀ p, p <+: f.codec.encode v → p ≠ f.codec.encode v → f.codec.read? p = none :=
  ⟨fun t => read?_append v t fits, fun _ part strict => read?_eq_none fits part strict⟩

/-- A migration that goes on while the first day of the year 10000 is near. -/
def lateItem : Work.Item where
  id := ⟨1, 2⟩
  vm := ⟨9⟩
  owner := ⟨1⟩
  step := .started
  operation := .migrateWithStorage
  plan := some ⟨⟨9⟩, ⟨5⟩, ⟨6⟩,
    .ofList [⟨⟨100⟩, ⟨201⟩⟩, ⟨⟨101⟩, ⟨202⟩⟩], true⟩
  created := ⟨9999, 12, 31, 23, 59, 59, 999999999, by decide⟩
  updated := ⟨9999, 12, 31, 23, 59, 59, 999999999, by decide⟩

theorem torn_item_is_not_read :
    (workItem.codec.encode lateItem).length = 190 ∧
      workItem.codec.read? (workItem.codec.encode lateItem ++ [255]) = some lateItem ∧
      workItem.codec.read? ((workItem.codec.encode lateItem).take 189) = none := by
  have length : (workItem.codec.encode lateItem).length = 190 := by decide +kernel
  have fits : (workItem.codec.encode lateItem).length < UInt64.size := by rw [length]; decide
  obtain ⟨found, torn⟩ := values_end_by_themselves workItem lateItem fits
  refine ⟨length, found [255], torn _ (List.take_prefix ..) fun whole => ?_⟩
  have shorter := congrArg List.length whole
  rw [List.length_take, length] at shorter
  cases shorter

end Form
end ControlPlane
