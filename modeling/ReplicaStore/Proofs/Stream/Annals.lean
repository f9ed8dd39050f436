import ReplicaStore.Proofs.Stream.Chronicle

/-!
# Annals

A history of the stream is handed from node to node under its id.  The annals say of each
id which history it names, as far as anybody has taken it: whoever goes by the id has some
beginning of it.  They only ever grow (`Stream.Annals.Grows`).

A node that has the beginnings of histories that its identity stands for shares with anybody
else all that the two have under one id (`Stream.Annals.Tells.shares`).
-/

namespace ReplicaStore.Stream

namespace Chronicle

variable {chronicle first second whole : Chronicle} {place : Int} {bytes : Bytes}

/-- One chronicle is the beginning of another one. -/
structure Within (chronicle whole : Chronicle) : Prop where
  start : chronicle.start = whole.start
  bytes : chronicle.bytes <+: whole.bytes

/-- The beginning of a chronicle up to an offset. -/
def upTo (chronicle : Chronicle) (place : Int) : Chronicle :=
  { chronicle with bytes := chronicle.bytes.take (place - chronicle.start).toNat }

namespace Within

theorem refl (chronicle : Chronicle) : chronicle.Within chronicle :=
  ⟨rfl, List.prefix_refl _⟩

theorem trans (inner : first.Within second) (outer : second.Within whole) : first.Within whole :=
  ⟨inner.start.trans outer.start, inner.bytes.trans outer.bytes⟩

theorem ends_le (within : chronicle.Within whole) : chronicle.ends ≤ whole.ends := by
  have length := within.bytes.length_le
  have start := within.start
  simp only [ends]
  omega

/-- Of two beginnings of one chronicle the shorter one is a beginning of the longer one. -/
theorem of_within (left : first.Within whole) (right : second.Within whole)
    (short : first.ends ≤ second.ends) : first.Within second := by
  have start := left.start.trans right.start.symm
  refine ⟨start, List.prefix_of_prefix_length_le left.bytes right.bytes ?_⟩
  simp only [ends] at short
  omega

theorem eq_upTo (within : chronicle.Within whole) : chronicle = whole.upTo chronicle.ends := by
  obtain ⟨start, bytes⟩ := chronicle
  obtain ⟨same, beginning⟩ := within
  dsimp only at same beginning
  subst same
  have count : (whole.start + (bytes.length : Int) - whole.start).toNat = bytes.length := by omega
  simp only [upTo, ends, count]
  rw [List.prefix_iff_eq_take.mp beginning, List.length_take,
    Nat.min_eq_left beginning.length_le]

/-- What a beginning lacks follows from its end. -/
theorem extend_since (within : chronicle.Within whole) :
    chronicle.extend (whole.since chronicle.ends) = whole := by
  obtain ⟨start, bytes⟩ := chronicle
  obtain ⟨same, rest, joined⟩ := within
  dsimp only at same joined
  subst same
  have count : (whole.start + (bytes.length : Int) - whole.start).toNat = bytes.length := by omega
  simp only [since, extend, ends, count, ← joined, List.drop_left]
  rw [joined]

end Within

theorem within_extend (chronicle : Chronicle) (bytes : Bytes) :
    chronicle.Within (chronicle.extend bytes) :=
  ⟨rfl, List.prefix_append ..⟩

theorem upTo_within (chronicle : Chronicle) (place : Int) : (chronicle.upTo place).Within chronicle :=
  ⟨rfl, List.take_prefix ..⟩

theorem ends_upTo (reaches : chronicle.Reaches place) : (chronicle.upTo place).ends = place := by
  obtain ⟨least, most⟩ := reaches
  simp only [ends, upTo, List.length_take] at most ⊢
  omega

theorem InRange.within (range : whole.InRange) (within : chronicle.Within whole) :
    chronicle.InRange :=
  ⟨within.start ▸ range.least, Int.le_trans within.ends_le range.most⟩

end Chronicle

/-! ### Ids -/

namespace IdSupply

/-- The id that is drawn when so many have been drawn already. -/
def id (supply : IdSupply) (count : Nat) : String :=
  drawnId (supply.next + count * supply.stride)

/-- The supply when so many ids have been drawn. -/
def skip (supply : IdSupply) (count : Nat) : IdSupply :=
  { supply with next := supply.next + count * supply.stride }

theorem draw_skip (supply : IdSupply) (count : Nat) :
    (supply.skip count).draw = (supply.id count, supply.skip (count + 1)) := by
  simp only [draw, skip, id, Nat.succ_mul, Nat.add_assoc]

/-- No id is ever drawn twice, by nobody. -/
def Apart {Place : Type} (supplies : Place → IdSupply) : Prop :=
  ∀ first second left right, (supplies first).id left = (supplies second).id right →
    first = second ∧ left = right

end IdSupply

/-! ### Annals -/

/-- The histories that ids name, as far as they have been taken. -/
abbrev Annals := String → Option Chronicle

namespace Annals

variable {annals earlier later : Annals} {id : String} {chronicle whole : Chronicle}
  {supply : IdSupply}

/-- A chronicle is the beginning of a history. -/
def Has (annals : Annals) (id : String) (chronicle : Chronicle) : Prop :=
  ∃ whole, annals id = some whole ∧ chronicle.Within whole

theorem Has.within (has : annals.Has id chronicle) {other : Chronicle}
    (longer : annals.Has id other) (short : chronicle.ends ≤ other.ends) :
    chronicle.Within other := by
  obtain ⟨whole, named, left⟩ := has
  obtain ⟨same, again, right⟩ := longer
  obtain rfl : whole = same := Option.some.inj (named.symm.trans again)
  exact left.of_within right short

theorem Has.mono (has : annals.Has id whole) (within : chronicle.Within whole) :
    annals.Has id chronicle := by
  obtain ⟨all, named, beginning⟩ := has
  exact ⟨all, named, within.trans beginning⟩

/-- Histories are taken further, or new ones are begun. -/
def Grows (earlier later : Annals) : Prop :=
  ∀ id whole, earlier id = some whole → later.Has id whole

theorem Grows.refl (annals : Annals) : annals.Grows annals :=
  fun _ whole named => ⟨whole, named, .refl _⟩

theorem Has.grows (has : earlier.Has id chronicle) (grows : earlier.Grows later) :
    later.Has id chronicle := by
  obtain ⟨whole, named, within⟩ := has
  exact (grows id whole named).mono within

theorem Grows.trans {between : Annals} (first : earlier.Grows between)
    (second : between.Grows later) : earlier.Grows later :=
  fun id whole named => (first id whole named).grows second

/-- The annals with a history taken so far. -/
def record (annals : Annals) (id : String) (chronicle : Chronicle) : Annals :=
  fun other => if other = id then some chronicle else annals other

theorem record_self : annals.record id chronicle id = some chronicle :=
  if_pos rfl

theorem record_other {other : String} (apart : other ≠ id) :
    annals.record id chronicle other = annals other :=
  if_neg apart

theorem grows_record (further : ∀ whole, annals id = some whole → whole.Within chronicle) :
    annals.Grows (annals.record id chronicle) := by
  intro other whole named
  by_cases same : other = id
  · subst same
    exact ⟨chronicle, record_self, further whole named⟩
  · exact ⟨whole, (record_other same).trans named, .refl _⟩

/-- Only histories under the ids of one supply are taken further. -/
structure Advances (supply : IdSupply) (earlier later : Annals) : Prop where
  grows : earlier.Grows later
  apart : ∀ id, (∀ count, id ≠ supply.id count) → later id = earlier id

namespace Advances

theorem refl (annals : Annals) : Advances supply annals annals :=
  ⟨.refl _, fun _ _ => rfl⟩

theorem trans {between : Annals} (first : Advances supply earlier between)
    (second : Advances supply between later) : Advances supply earlier later where
  grows := first.grows.trans second.grows
  apart := fun id foreign => (second.apart id foreign).trans (first.apart id foreign)

theorem record (count : Nat)
    (further : ∀ whole, annals (supply.id count) = some whole → whole.Within chronicle) :
    Advances supply annals (annals.record (supply.id count) chronicle) :=
  ⟨grows_record further, fun _ foreign => record_other (foreign count)⟩

end Advances

/-- A history is a beginning of what its identity stands for. -/
structure Tells (annals : Annals) (identity : Identity) (history : Chronicle) : Prop where
  current : annals.Has identity.current history
  previous : identity.previousEnd = -1 ∨ ∃ before : Chronicle,
    annals.Has identity.previous before ∧ before.ends = identity.previousEnd ∧
      before.Within history

namespace Tells

variable {identity : Identity} {history other : Chronicle}

theorem grows (tells : earlier.Tells identity history) (grows : earlier.Grows later) :
    later.Tells identity history where
  current := tells.current.grows grows
  previous := by
    rcases tells.previous with never | ⟨before, known, ends, within⟩
    · exact .inl never
    · exact .inr ⟨before, known.grows grows, ends, within⟩

/-- What somebody has of a history that is shared is a beginning of it. -/
theorem shares (tells : annals.Tells identity history) (has : annals.Has id other)
    (least : 0 ≤ other.start) (shares : identity.sharesHistory id other.ends = true)
    (short : other.ends ≤ history.ends) : other.Within history := by
  simp only [Identity.sharesHistory, Bool.or_eq_true, beq_iff_eq, Bool.and_eq_true,
    decide_eq_true_eq] at shares
  rcases shares with rfl | ⟨rfl, ended⟩
  · exact has.within tells.current short
  · rcases tells.previous with never | ⟨before, known, ends, within⟩
    · simp only [Chronicle.ends] at ended
      omega
    · exact (has.within known (by omega)).trans within

/-- The history goes on under the same id. -/
theorem extend {bytes : Bytes} (tells : annals.Tells identity history)
    (has : annals.Has identity.current (history.extend bytes)) :
    annals.Tells identity (history.extend bytes) where
  current := has
  previous := by
    rcases tells.previous with never | ⟨before, known, ends, within⟩
    · exact .inl never
    · exact .inr ⟨before, known, ends, within.trans (history.within_extend bytes)⟩

/-- The history goes on under another id, and the one so far becomes the previous one. -/
theorem shift (tells : annals.Tells identity history) (has : annals.Has id history) :
    annals.Tells (identity.shift id history.ends) history where
  current := has
  previous := .inr ⟨history, tells.current, rfl, .refl _⟩

/-- A history is taken over under its id. -/
theorem adopt (identity : Identity) (has : annals.Has id history) :
    annals.Tells (identity.adopt id) history where
  current := has
  previous := .inl rfl

end Tells
end Annals
end ReplicaStore.Stream
