import ReplicaStore.Proofs.Stream.Moves
import ReplicaStore.Proofs.Stream.Since
import ReplicaStore.Text.Integer

/-!
# The chronicle of a stream

A backlog keeps the end of a stream; its chronicle is all of it since the backlog was put in
place, and where that was.  As long as a chronicle is kept (`Stream.Chronicle.Kept`), what
can still be read from the backlog is just the end of the chronicle
(`Stream.Chronicle.Kept.read`).
-/

namespace ReplicaStore.Stream

open Backlog (endOfOffsets)

namespace Backlog.Since

/-- What was taken up since an offset includes what was taken up since a later one. -/
theorem drop {backlog : Backlog} {offset : Int} {bytes : Bytes} (since : backlog.Since offset bytes)
    {count : Nat} (inside : count ≤ bytes.length) :
    backlog.Since (offset + count) (bytes.drop count) where
  active := since.active
  least := by
    have := since.least
    omega
  span := by
    have := since.span
    rw [List.length_drop]
    omega
  bounded := since.bounded
  cells := by
    intro index within held
    rw [List.length_drop] at within held
    have there := since.cells (count + index) (by omega) (by omega)
    rw [List.getElem_drop, ← there]
    congr 2
    omega

end Backlog.Since

/-- All that a stream is made of since it was begun, or put in the place of another one. -/
structure Chronicle where
  start : Int := 0
  bytes : Bytes := []

namespace Chronicle

/-- The offset at which the stream ends. -/
def ends (chronicle : Chronicle) : Int :=
  chronicle.start + chronicle.bytes.length

/-- The bytes from an offset up to the end. -/
def since (chronicle : Chronicle) (place : Int) : Bytes :=
  chronicle.bytes.drop (place - chronicle.start).toNat

/-- The offset is one of the stream, or its end. -/
def Reaches (chronicle : Chronicle) (place : Int) : Prop :=
  chronicle.start ≤ place ∧ place ≤ chronicle.ends

/-- All offsets of the stream fit into 63 bits. -/
structure InRange (chronicle : Chronicle) : Prop where
  least : 0 ≤ chronicle.start
  most : chronicle.ends ≤ Text.maxSigned64

instance (chronicle : Chronicle) : Decidable chronicle.InRange :=
  decidable_of_iff (0 ≤ chronicle.start ∧ chronicle.ends ≤ Text.maxSigned64)
    ⟨fun range => ⟨range.1, range.2⟩, fun range => ⟨range.least, range.most⟩⟩

/-- The stream with more bytes at its end. -/
def extend (chronicle : Chronicle) (bytes : Bytes) : Chronicle :=
  { chronicle with bytes := chronicle.bytes ++ bytes }

@[simp] theorem extend_nil (chronicle : Chronicle) : chronicle.extend [] = chronicle := by
  simp [extend]

theorem extend_append (chronicle : Chronicle) (first second : Bytes) :
    chronicle.extend (first ++ second) = (chronicle.extend first).extend second := by
  simp [extend]

@[simp] theorem ends_extend (chronicle : Chronicle) (bytes : Bytes) :
    (chronicle.extend bytes).ends = chronicle.ends + bytes.length := by
  simp only [ends, extend, List.length_append]
  omega

variable {chronicle : Chronicle} {place : Int} {bytes more : Bytes}

theorem Reaches.extend (reaches : chronicle.Reaches place) (bytes : Bytes) :
    (chronicle.extend bytes).Reaches place := by
  refine ⟨reaches.1, ?_⟩
  have := reaches.2
  rw [ends_extend]
  omega

theorem since_extend (reaches : chronicle.Reaches place) (bytes : Bytes) :
    (chronicle.extend bytes).since place = chronicle.since place ++ bytes := by
  have inside : (place - chronicle.start).toNat ≤ chronicle.bytes.length := by
    have := reaches.2
    simp only [ends] at this
    omega
  exact List.drop_append_of_le_length inside

/-- What is in range with more at its end was so before. -/
theorem InRange.of_extend (range : (chronicle.extend bytes).InRange) : chronicle.InRange := by
  refine ⟨range.least, ?_⟩
  have := range.most
  rw [ends_extend] at this
  omega

/-- What can be read of a backlog that has taken up a chronicle is the end of it. -/
theorem of_read {backlog : Backlog} (since : backlog.Since chronicle.start chronicle.bytes)
    (held : backlog.held ≤ chronicle.bytes.length) (range : chronicle.InRange) {tail : Bytes}
    (given : backlog.read place = .ok tail) :
    chronicle.Reaches place ∧ tail = chronicle.since place := by
  have span := since.span
  have most := range.most
  simp only [ends, Text.maxSigned64] at most
  have within : backlog.writeOffset < endOfOffsets := by
    simp only [endOfOffsets]
    omega
  have reaches : chronicle.Reaches place := by
    simp only [Backlog.read, Backlog.readable] at given
    split at given
    · cases given
    · split at given
      · cases given
      · simp only [Reaches, ends]
        omega
  refine ⟨reaches, ?_⟩
  have inside : (place - chronicle.start).toNat ≤ chronicle.bytes.length := by
    have := reaches.2
    simp only [ends] at this
    omega
  have later := since.drop inside
  have same : chronicle.start + ((place - chronicle.start).toNat : Int) = place := by
    have := reaches.1
    omega
  rw [same] at later
  exact later.read within given

/-- The backlog, if there is one, has taken up the chronicle. -/
def Kept (chronicle : Chronicle) (coordinator : Coordinator) : Prop :=
  ∀ backlog, coordinator.backlog = some backlog →
    backlog.Since chronicle.start chronicle.bytes ∧ backlog.held ≤ chronicle.bytes.length

namespace Kept

variable {coordinator later : Coordinator}

theorem of_none (unrecorded : coordinator.backlog = none) : chronicle.Kept coordinator := by
  intro backlog found
  rw [unrecorded] at found
  cases found

theorem congr (kept : chronicle.Kept coordinator) (same : later.backlog = coordinator.backlog) :
    chronicle.Kept later := by
  rw [Kept, same]
  exact kept

/-- Where nothing was taken up yet, the chronicle is empty. -/
theorem of_fresh {backlog : Backlog} (recorded : coordinator.backlog = some backlog)
    (active : backlog.active = true) (empty : backlog.held = 0) (least : 0 ≤ coordinator.offset) :
    Kept { start := coordinator.offset } coordinator := by
  have place : coordinator.offset = backlog.writeOffset := by rw [Coordinator.offset, recorded]; rfl
  rintro same found
  obtain rfl : backlog = same := by simpa [recorded] using found
  rw [place] at least ⊢
  exact ⟨.nil active least (by omega), by simp [empty]⟩

theorem offset_eq (kept : chronicle.Kept coordinator) (recorded : coordinator.backlog.isSome = true) :
    coordinator.offset = chronicle.ends := by
  obtain ⟨backlog, found⟩ := Option.isSome_iff_exists.mp recorded
  rw [Coordinator.offset, found]
  exact (kept backlog found).1.span

/-- What can be read of a backlog is the end of its chronicle. -/
theorem read (kept : chronicle.Kept coordinator) (range : chronicle.InRange) {backlog : Backlog}
    (recorded : coordinator.backlog = some backlog) {tail : Bytes}
    (given : backlog.read place = .ok tail) :
    chronicle.Reaches place ∧ tail = chronicle.since place := by
  obtain ⟨since, held⟩ := kept backlog recorded
  exact of_read since held range given

/-- What is written to the backlog is written to the chronicle. -/
theorem write (kept : chronicle.Kept coordinator) (range : (chronicle.extend bytes).InRange)
    {backlog : Backlog} (recorded : coordinator.backlog = some backlog)
    (written : later.backlog = some (backlog.write bytes).2) :
    (chronicle.extend bytes).Kept later := by
  obtain ⟨since, held⟩ := kept backlog recorded
  have span := since.span
  have most := range.most
  rw [ends_extend] at most
  simp only [ends, Text.maxSigned64] at most
  rintro same found
  obtain rfl : (backlog.write bytes).2 = same := by simpa [written] using found
  refine ⟨since.write bytes ?_, ?_⟩
  · simp only [endOfOffsets]
    omega
  · rw [Backlog.write, if_pos since.active]
    simp only [extend, List.length_append, List.length_drop]
    omega

end Kept
end Chronicle

namespace Move

variable {move : Move} {moves : List Move} {desk : Desk}

/-- Most moves leave the backlog as it is. -/
theorem backlog_apply (silent : ¬move.Feeds) (flows : ¬move.Restarts) (desk : Desk) :
    (move.apply desk).1.backlog = desk.1.backlog ∨
      move.Expires ∧ (move.apply desk).1.backlog = none := by
  cases move with
  | resume now id history offset =>
      simp only [apply, Coordinator.partialResync?]
      cases desk.1.missed? history offset <;> exact .inl rfl
  | finish now payload => exact .inl (Coordinator.finishFullSync_steady ..).1.backlog
  | expire now upkeep =>
      rcases Coordinator.backlog_expireBacklog desk.1 now upkeep with same | ⟨_, none⟩
      · exact .inl same
      · exact .inr ⟨trivial, none⟩
  | branch => exact .inl (backlog_branch desk)
  | feed => exact absurd trivial silent
  | create | activate | renew => exact absurd trivial flows
  | _ => exact .inl rfl

/-- Where no stream is recorded, none is unless one begins. -/
theorem unrecorded (flows : ¬move.Restarts) (unrecorded : desk.1.backlog = none) :
    (move.apply desk).1.backlog = none := by
  by_cases feeds : move.Feeds
  · cases move with
    | feed bytes database =>
        simp only [apply, unrecorded]
    | _ => cases feeds
  · rcases backlog_apply feeds flows desk with same | ⟨_, none⟩
    · rw [same]
      exact unrecorded
    · exact none

theorem unrecorded_applyAll (flows : ∀ move ∈ moves, ¬move.Restarts)
    (empty : desk.1.backlog = none) : (applyAll moves desk).1.backlog = none := by
  induction moves generalizing desk with
  | nil => exact empty
  | cons move moves ih =>
      exact ih (fun later member => flows later (List.mem_cons_of_mem _ member))
        (unrecorded (flows move List.mem_cons_self) empty)

end Move

namespace Chronicle

variable {chronicle : Chronicle} {move : Move} {moves : List Move} {desk : Desk}

/-- A chronicle is kept up to date by adding what is fed. -/
theorem Kept.apply (kept : chronicle.Kept desk.1) (flows : ¬move.Restarts)
    (range : (chronicle.extend move.fed).InRange) :
    (chronicle.extend move.fed).Kept (move.apply desk).1 := by
  by_cases feeds : move.Feeds
  · cases move with
    | feed bytes database =>
        cases recorded : desk.1.backlog with
        | none => exact .of_none (Move.unrecorded flows recorded)
        | some backlog =>
            refine kept.write range recorded ?_
            simp only [Move.apply, recorded]
            rfl
    | _ => cases feeds
  · have nothing : move.fed = [] := by
      cases move <;> first | rfl | exact absurd trivial feeds
    rw [nothing, extend_nil]
    rcases Move.backlog_apply feeds flows desk with same | ⟨_, none⟩
    · exact kept.congr same
    · exact .of_none none

theorem Kept.applyAll (kept : chronicle.Kept desk.1) (flows : ∀ move ∈ moves, ¬move.Restarts)
    (range : (chronicle.extend (moves.flatMap Move.fed)).InRange) :
    (chronicle.extend (moves.flatMap Move.fed)).Kept (Move.applyAll moves desk).1 := by
  induction moves generalizing desk chronicle with
  | nil => simpa using kept
  | cons move moves ih =>
      rw [List.flatMap_cons, extend_append] at range ⊢
      exact ih (kept.apply (flows move List.mem_cons_self) range.of_extend)
        (fun later member => flows later (List.mem_cons_of_mem _ member)) range

/-- A backlog that was put in place has not taken up anything yet. -/
def Fresh (coordinator : Coordinator) : Prop :=
  ∀ backlog, coordinator.backlog = some backlog → backlog.active = true ∧ backlog.held = 0

theorem Fresh.apply (fresh : Fresh desk.1) (silent : ¬move.Feeds) : Fresh (move.apply desk).1 := by
  cases move with
  | create offset =>
      rintro backlog ⟨⟩
      exact ⟨rfl, rfl⟩
  | activate =>
      rintro _ ⟨⟩
      refine ⟨rfl, ?_⟩
      simp only [Coordinator.backlogOrNew]
      cases recorded : desk.1.backlog with
      | none => rfl
      | some backlog => exact (fresh backlog recorded).2
  | renew history offset =>
      rintro _ ⟨⟩
      exact ⟨rfl, rfl⟩
  | feed => exact absurd trivial silent
  | _ =>
      rcases Move.backlog_apply silent (by exact id) desk with same | ⟨_, none⟩
      · rw [Fresh, same]
        exact fresh
      · rw [Fresh, none]
        rintro _ ⟨⟩

end Chronicle
end ReplicaStore.Stream
