import ReplicaStore.Proofs.Snapshot.RoundTrip
import ReplicaStore.Proofs.Text.LineBreak

/-!
# What is wrong with a snapshot

Only the version that a snapshot names is repeated where the snapshot is refused.  A snapshot
that this program has written names one that it knows, so whatever else is wrong with it is told
in one line (`commandsOf_image_error`).
-/

namespace ReplicaStore

/-- A decoder refuses bytes only with errors that are allowed. -/
def Decoder.Fails {ε α : Type} (allowed : ε → Prop) (decoder : Decoder ε α) : Prop :=
  ∀ input error, decoder input = .bad error → allowed error

namespace Decoder.Fails

variable {ε α β : Type} {allowed : ε → Prop}

protected theorem pure (value : α) : Fails allowed (pure value : Decoder ε α) := by
  intro input error read
  cases read

theorem fail {error : ε} (fine : allowed error) : Fails allowed (Decoder.fail error : Decoder ε α) := by
  intro input other read
  cases read
  exact fine

theorem ofOption {error : ε} (fine : allowed error) (value : Option α) :
    Fails allowed (Decoder.ofOption error value) := by
  cases value with
  | none => exact fail fine
  | some value => exact .pure value

theorem byte : Fails allowed (Decoder.byte : Decoder ε UInt8) := by
  intro input error read
  cases input with
  | nil => cases read
  | cons first others => cases read

theorem take (count : Nat) : Fails allowed (Decoder.take count : Decoder ε Bytes) := by
  intro input error read
  simp only [Decoder.take] at read
  split at read
  · cases read
  · cases read

theorem bind {first : Decoder ε α} {next : α → Decoder ε β} (fails : Fails allowed first)
    (each : ∀ value, Fails allowed (next value)) : Fails allowed (first >>= next) := by
  intro input error read
  rw [bind_run] at read
  split at read
  · cases read
  · next run =>
      cases read
      exact fails input _ run
  · next value rest run => exact each value rest error read

theorem repeated {decoder : Decoder ε α} (fails : Fails allowed decoder) (count : Nat) :
    Fails allowed (Decoder.repeated decoder count) := by
  induction count with
  | zero => exact .pure []
  | succ count ih => exact bind fails fun first => bind ih fun others => .pure (first :: others)

end Decoder.Fails

namespace Snapshot

/-- The error is told in one line. -/
def SnapshotError.Plain (error : SnapshotError) : Prop :=
  Text.OneLine error.message

theorem SnapshotError.plain_of_notMem {error : SnapshotError}
    (plain : '\r' ∉ error.message.toList) : error.Plain :=
  Text.oneLine_of_notMem plain

theorem plain_unknownOpcode (opcode : UInt8) : (SnapshotError.unknownOpcode opcode).Plain := by
  have digits : ∀ value < 16, (Nat.digitChar value).toUpper ≠ '\r' := by decide
  have hex : '\r' ∉ (upperHex opcode).toList := by
    have bound := opcode.toNat_lt
    rw [upperHex, String.toList_ofList, List.mem_cons, List.mem_singleton, not_or]
    exact ⟨(digits (opcode.toNat / 16) (by omega)).symm,
      (digits (opcode.toNat % 16) (Nat.mod_lt _ (by decide))).symm⟩
  have written : (SnapshotError.unknownOpcode opcode).message =
      "unknown opcode 0x" ++ upperHex opcode := rfl
  rw [SnapshotError.Plain, written]
  exact (Text.oneLine_of_notMem hex).behind (by decide)

open SnapshotError (Plain plain_of_notMem)
open Decoder (Fails)

theorem plain_announced : Fails Plain announced := by
  refine .bind .byte fun first => ?_
  dsimp only
  split
  · exact .pure _
  · exact .bind .byte fun second => .pure _
  · split
    · exact .bind (.take 4) fun digits => .pure _
    · exact .bind (.take 8) fun digits => .pure _
    · exact .fail (plain_of_notMem (by decide))
  · split
    · exact .pure _
    · exact .pure _
    · exact .pure _
    · exact .pure _
    · exact .fail (plain_of_notMem (by decide))

theorem plain_length : Fails Plain length := by
  refine .bind plain_announced fun form => ?_
  split
  · exact .pure _
  · exact .fail (plain_of_notMem (by decide))

theorem plain_string : Fails Plain string := by
  refine .bind plain_announced fun form => ?_
  split
  · exact .bind (.take _) fun content => .ofOption (plain_of_notMem (by decide)) _
  · exact .bind (.take _) fun digits => .pure _
  · exact .fail (plain_of_notMem (by decide))

theorem plain_datum (type : UInt8) : Fails Plain (datum type) := by
  unfold datum
  split
  · exact .bind plain_string fun content => .pure _
  · split
    · exact .bind plain_length fun count =>
        .bind (plain_string.repeated count) fun items => .pure _
    · exact .fail (plain_unknownOpcode type)

theorem plain_typedEntry (type : UInt8) (expiry : Option Int) :
    Fails Plain (typedEntry type expiry) :=
  .bind plain_string fun _ => .bind (plain_datum type) fun _ => .pure _

theorem plain_expiringEntry (expiry : Int) : Fails Plain (expiringEntry expiry) :=
  .bind .byte fun type => plain_typedEntry type (some expiry)

theorem plain_record : Fails Plain record := by
  refine .bind .byte fun opcode => ?_
  dsimp only
  split
  · exact .bind plain_string fun name => .bind plain_string fun value => .pure _
  split
  · exact .bind plain_length fun keys => .bind plain_length fun expiring => .pure _
  split
  · exact .bind plain_length fun index => .pure _
  split
  · exact .bind (.take 4) fun seconds => plain_expiringEntry _
  split
  · refine .bind (.take 8) fun milliseconds => ?_
    split
    · exact plain_expiringEntry _
    · exact .fail (plain_of_notMem (by decide))
  split
  · exact .bind (.take 8) fun checksum => .pure _
  · exact plain_typedEntry opcode none

/-- Behind the header, whatever is wrong is told in one line.  The induction is on the records. -/
theorem Reader.plain_readRecords {reader later : Reader} {error : SnapshotError}
    (broken : reader.readRecords = (.error error, later)) : error.Plain := by
  fun_induction Reader.readRecords reader with
  | case1 => cases broken
  | case2 => cases broken
  | case3 reader unfinished other read =>
      cases broken
      exact plain_record _ _ read
  | case4 reader unfinished found rest read shorter ih => exact ih broken

/-- A snapshot that was written is refused, if at all, with an error of one line. -/
theorem commandsOf_image_error {views : List Keyspace} {now : Int} {error : SnapshotError}
    (refused : commandsOf (image views now) = .error error) : error.Plain := by
  obtain ⟨rest, written⟩ : ∃ rest, image views now =
      Bytes.ofText magic ++ (Bytes.ofText "0009" ++ rest) := by
    rw [image, preamble_eq]
    simp only [List.append_assoc]
    exact ⟨_, rfl⟩
  have fed : ({} : Reader).feed (image views now) =
      Reader.readRecords { pending := rest, version := some "0009" } := by
    rw [Reader.feed, if_neg (by simp [Reader.finished]), written]
    simp only [List.nil_append, Reader.readPending, header_preamble]
  rw [commandsOf, fed] at refused
  cases read : Reader.readRecords { pending := rest, version := some "0009" } with
  | mk result later =>
      rw [read] at refused
      cases result with
      | error other =>
          cases refused
          exact Reader.plain_readRecords read
      | ok =>
          simp only [Reader.result] at refused
          split at refused
          · cases refused
          · cases refused
            exact plain_of_notMem (by decide)

end Snapshot
end ReplicaStore
