import ReplicaStore.Proofs.Node.Chronicle
import ReplicaStore.Proofs.Node.Logging
import ReplicaStore.Proofs.Node.Reforms
import ReplicaStore.Proofs.Stream.Annals

/-!
# The standing of a node in the annals

A node has the beginnings of histories that its identity stands for, and while it leads, its
own history is all that there is of the one under its id (`Node.Stands`).  Whatever happens
to it, that stays so, and the annals change under ids only that the node has drawn itself
(`Node.Stands.next`).
-/

namespace ReplicaStore

open ReplicaStore.Stream (Annals Chronicle Coordinator IdSupply Piece)

/-- The history of a node after something that adds nothing to it. -/
def Stream.Chronicle.carried (history : Chronicle) (node later : Node) : Chronicle :=
  if node.coordinator.backlog.isNone then { start := later.coordinator.offset } else history

namespace Node

variable {node between later : Node} {supply : IdSupply} {annals : Annals} {history : Chronicle}
  {bytes : Bytes}

theorem carried_of_none (unrecorded : node.coordinator.backlog = none) :
    history.carried node later = { start := later.coordinator.offset } := by
  simp [Chronicle.carried, unrecorded]

theorem carried_of_some (recorded : node.coordinator.backlog.isSome = true) :
    history.carried node later = history := by
  rw [Chronicle.carried, Option.isNone_eq_false_iff.mpr recorded]
  rfl

/-- Where nothing is added, a history is carried on. -/
theorem next_quiet {happening : Happening} (same : node.loads happening = false)
    (quiet : node.added happening = []) :
    history.next node happening later = history.carried node later := by
  cases recorded : node.coordinator.backlog with
  | none => rw [Chronicle.next_of_none recorded, carried_of_none recorded]
  | some backlog =>
      have some : node.coordinator.backlog.isSome = true := by simp [recorded]
      rw [Chronicle.next_of_recorded some same, carried_of_some some, quiet]
      exact Chronicle.extend_nil _

/-- A history is all that there is under the id of a node, which the node has drawn itself. -/
structure Owns (supply : IdSupply) (annals : Annals) (history : Chronicle) (node : Node) : Prop where
  whole : annals node.coordinator.identity.current = some history
  drawn : ∃ count, node.coordinator.identity.current = supply.id count

/-- Whoever has drawn the id of a history may take it further. -/
theorem Owns.feeds (owns : node.Owns supply annals history)
    (single : ∀ left right, supply.id left = supply.id right → left = right) (bytes : Bytes) :
    ∃ further, Annals.Advances supply annals further ∧
      further node.coordinator.identity.current = some (history.extend bytes) ∧
      ∀ other, annals (supply.id other) = none → further (supply.id other) = none := by
  obtain ⟨all, count, name⟩ := owns
  rw [name] at all ⊢
  refine ⟨_, @Annals.Advances.record annals (history.extend bytes) supply count ?_,
    Annals.record_self, fun other unknown => ?_⟩
  · intro whole named
    obtain rfl : history = whole := Option.some.inj (all.symm.trans named)
    exact history.within_extend bytes
  · rw [Annals.record_other]
    · exact unknown
    · intro twice
      rw [single other count twice, all] at unknown
      cases unknown

/-- What a node stands for in the annals, if its ids come from a supply. -/
structure Stands (supply : IdSupply) (annals : Annals) (history : Chronicle) (node : Node) : Prop where
  /-- Nothing is known under ids that are yet to be drawn. -/
  supplied : ∃ count, node.coordinator.supply = supply.skip count ∧
    ∀ other, count ≤ other → annals (supply.id other) = none
  offset : node.coordinator.backlog.isSome = true → node.coordinator.offset = history.ends
  tells : node.coordinator.backlog.isSome = true → annals.Tells node.coordinator.identity history
  /-- A leader has all of its own history. -/
  owns : node.coordinator.backlog.isSome = true → node.following = false →
    node.Owns supply annals history

namespace Stands

/-- Where no stream is recorded there is nothing to stand for. -/
theorem of_none (stands : node.Stands supply annals history)
    (supplied : later.coordinator.supply = node.coordinator.supply)
    (unrecorded : later.coordinator.backlog = none) (other : Chronicle) :
    later.Stands supply annals other where
  supplied := by
    rw [supplied]
    exact stands.supplied
  offset := by simp [unrecorded]
  tells := by simp [unrecorded]
  owns := by simp [unrecorded]

theorem grows {further : Annals} (stands : node.Stands supply annals history)
    (grows : annals.Grows further)
    (own : ∀ count, further (supply.id count) = annals (supply.id count)) :
    node.Stands supply further history where
  supplied := by
    obtain ⟨count, same, unknown⟩ := stands.supplied
    exact ⟨count, same, fun other after => (own other).trans (unknown other after)⟩
  offset := stands.offset
  tells := fun recorded => (stands.tells recorded).grows grows
  owns := by
    intro recorded leads
    obtain ⟨whole, count, drawn⟩ := stands.owns recorded leads
    refine ⟨?_, count, drawn⟩
    rw [drawn, own, ← drawn]
    exact whole

/-- The next id that a node draws names nothing yet. -/
theorem draws (stands : node.Stands supply annals history) :
    ∃ count, node.coordinator.supply.draw = (supply.id count, supply.skip (count + 1)) ∧
      ∀ other, count ≤ other → annals (supply.id other) = none := by
  obtain ⟨count, same, unknown⟩ := stands.supplied
  exact ⟨count, by rw [same, IdSupply.draw_skip], unknown⟩

/-- A node that gives its stream up draws an id for the next one. -/
theorem gives_up {further : Annals} (stands : node.Stands supply annals history)
    (still : ∀ other, annals (supply.id other) = none → further (supply.id other) = none)
    (drew : later.coordinator.supply = node.coordinator.supply.draw.2)
    (gone : later.coordinator.backlog = none) (other : Chronicle) :
    later.Stands supply further other := by
  obtain ⟨count, draw, unknown⟩ := stands.draws
  rw [draw] at drew
  refine ⟨⟨count + 1, drew, fun place after =>
    still place (unknown place (Nat.le_of_succ_le after))⟩, ?_, ?_, ?_⟩ <;> simp [gone]

variable (single : ∀ left right, supply.id left = supply.id right → left = right)

include single

/-- With an id that a node has drawn, a history is recorded. -/
theorem drawn {count : Nat} (unknown : ∀ other, count ≤ other → annals (supply.id other) = none)
    (supplied : later.coordinator.supply = supply.skip (count + 1))
    (current : later.coordinator.identity.current = supply.id count)
    (offset : later.coordinator.offset = history.ends)
    (tells : ∀ further : Annals, annals.Grows further → further.Has (supply.id count) history →
      further.Tells later.coordinator.identity history) :
    ∃ further, Annals.Advances supply annals further ∧ later.Stands supply further history ∧
      later.Owns supply further history := by
  have advances := @Annals.Advances.record annals history supply count (by
    intro whole named
    rw [unknown count (Nat.le_refl _)] at named
    cases named)
  have owns : later.Owns supply (annals.record (supply.id count) history) history :=
    ⟨by rw [current]; exact Annals.record_self, count, current⟩
  refine ⟨_, advances, ⟨?_, fun _ => offset, fun _ => ?_, fun _ _ => owns⟩, owns⟩
  · refine ⟨count + 1, supplied, fun other after => ?_⟩
    rw [Annals.record_other]
    · exact unknown other (Nat.le_of_succ_le after)
    · intro same
      have := single other count same
      omega
  · exact tells _ advances.grows ⟨history, Annals.record_self, .refl _⟩

/-- Nothing is added to the stream.  The node goes on under its id, or under one that it
has just drawn. -/
theorem reforms (stands : node.Stands supply annals history) (reforms : node.Reforms later) :
    ∃ further, Annals.Advances supply annals further ∧
      later.Stands supply further (history.carried node later) ∧
      (later.coordinator.identity = node.coordinator.identity ∧ further = annals ∨
        later.coordinator.backlog = none ∨
        later.Owns supply further (history.carried node later)) := by
  cases reforms with
  | keeps identity supplied backlog leads =>
      refine ⟨annals, .refl _, ?_, .inl ⟨identity, rfl⟩⟩
      cases recorded : node.coordinator.backlog with
      | none => exact stands.of_none supplied (backlog.trans recorded) _
      | some ring =>
          have some : node.coordinator.backlog.isSome = true := by simp [recorded]
          rw [carried_of_some some]
          refine ⟨by rw [supplied]; exact stands.supplied, fun _ => ?_, fun _ => ?_, fun _ leading => ?_⟩
          · rw [Coordinator.offset, backlog]
            exact stands.offset some
          · rw [identity]
            exact stands.tells some
          · obtain ⟨whole, drawn⟩ := stands.owns some (leads leading)
            exact ⟨by rw [identity]; exact whole, by rw [identity]; exact drawn⟩
  | branches identity supplied backlog =>
      cases recorded : node.coordinator.backlog with
      | none =>
          have unrecorded := backlog.trans recorded
          exact ⟨annals, .refl _, stands.gives_up (fun _ unknown => unknown) supplied unrecorded _,
            .inr (.inl unrecorded)⟩
      | some ring =>
          have some : node.coordinator.backlog.isSome = true := by simp [recorded]
          have offset := stands.offset some
          obtain ⟨count, draw, unknown⟩ := stands.draws
          rw [draw] at identity supplied
          rw [carried_of_some some]
          obtain ⟨further, advances, stays, owns⟩ := @drawn later supply annals history single
            count unknown supplied (by rw [identity]; rfl)
            (by rw [Coordinator.offset, backlog]; exact offset) (by
              intro further grows has
              rw [identity, offset]
              exact ((stands.tells some).grows grows).shift has)
          exact ⟨further, advances, stays, .inr (.inr owns)⟩
  | begins unrecorded identity supplied recorded =>
      obtain ⟨count, draw, unknown⟩ := stands.draws
      rw [draw] at identity supplied
      rw [carried_of_none unrecorded]
      obtain ⟨further, advances, stays, owns⟩ := @drawn later supply annals
        { start := later.coordinator.offset } single count unknown supplied
        (by rw [identity]; rfl) (by simp [Chronicle.ends]) (by
          intro further _ has
          rw [identity]
          exact .adopt _ has)
      exact ⟨further, advances, stays, .inr (.inr owns)⟩

/-- Something is added to the stream, by whoever owns it or as it stands in the annals. -/
theorem feeds (stands : node.Stands supply annals history)
    (recorded : node.coordinator.backlog.isSome = true)
    (identity : later.coordinator.identity = node.coordinator.identity)
    (supplied : later.coordinator.supply = node.coordinator.supply)
    (leads : later.following = false → node.following = false)
    (offset : later.coordinator.backlog.isSome = true →
      later.coordinator.offset = (history.extend bytes).ends)
    (own : node.Owns supply annals history ∨
      annals.Has node.coordinator.identity.current (history.extend bytes)) :
    ∃ further, Annals.Advances supply annals further ∧
      later.Stands supply further (history.extend bytes) ∧
      further.Has node.coordinator.identity.current (history.extend bytes) := by
  have tells := stands.tells recorded
  obtain ⟨count, same, unknown⟩ := stands.supplied
  by_cases owned : node.Owns supply annals history
  · obtain ⟨further, advances, whole, still⟩ := owned.feeds single bytes
    have has : further.Has node.coordinator.identity.current (history.extend bytes) :=
      ⟨_, whole, .refl _⟩
    refine ⟨further, advances, ⟨⟨count, supplied.trans same, fun other after =>
      still other (unknown other after)⟩, offset, fun _ => ?_, fun _ _ => ?_⟩, has⟩
    · rw [identity]
      exact (tells.grows advances.grows).extend has
    · exact ⟨by rw [identity]; exact whole, by rw [identity]; exact owned.drawn⟩
  · have has := own.resolve_left owned
    refine ⟨annals, .refl _, ⟨⟨count, supplied.trans same, unknown⟩, offset, fun _ => ?_,
      fun _ leading => absurd (stands.owns recorded (leads leading)) owned⟩, has⟩
    rw [identity]
    exact tells.extend has

/-- Deeds that add nothing to the stream. -/
theorem becomes {audience : ClientId → Prop} {source : Source}
    (stands : node.Stands supply annals history)
    (becomes : node.Becomes (Deed.Spares audience source) later) :
    (node.coordinator.backlog.isSome = true →
      later.coordinator.backlog = node.coordinator.backlog) ∧
    ∃ further, Annals.Advances supply annals further ∧
      later.Stands supply further (history.carried node later) ∧
      (node.coordinator.backlog.isSome = true →
        later.coordinator.identity = node.coordinator.identity ∨
          later.Owns supply further history) := by
  have start : (node.coordinator.backlog.isSome = true →
        node.coordinator.backlog = node.coordinator.backlog) ∧
      ∃ further, Annals.Advances supply annals further ∧
        node.Stands supply further (history.carried node node) ∧
        (node.coordinator.backlog.isSome = true →
          node.coordinator.identity = node.coordinator.identity ∨
            node.Owns supply further history) := by
    obtain ⟨further, advances, stays, _⟩ := stands.reforms single (Unmoved.refl node).reforms
    exact ⟨fun _ => rfl, further, advances, stays, fun _ => .inl rfl⟩
  refine @Becomes.keeps _ _ _ (fun between => (node.coordinator.backlog.isSome = true →
      between.coordinator.backlog = node.coordinator.backlog) ∧
    ∃ further, Annals.Advances supply annals further ∧
      between.Stands supply further (history.carried node between) ∧
      (node.coordinator.backlog.isSome = true →
        between.coordinator.identity = node.coordinator.identity ∨
          between.Owns supply further history)) becomes ?_ start
  intro deed between spares holds
  obtain ⟨backlog, further, advances, there, own⟩ := holds
  have reforms := reforms_deed spares between
  obtain ⟨furthest, more, stays, name⟩ := there.reforms single reforms
  cases recorded : node.coordinator.backlog with
  | some ring =>
      have some : node.coordinator.backlog.isSome = true := by simp [recorded]
      have middle := backlog some
      have still : between.coordinator.backlog.isSome = true := by rw [middle, some]
      have same := (reforms.backlog still).trans middle
      rw [carried_of_some some, carried_of_some still] at stays name
      refine ⟨fun _ => same.trans recorded, furthest, advances.trans more, ?_, fun _ => ?_⟩
      · rwa [carried_of_some some]
      · rcases name with ⟨identity, rfl⟩ | none | owns
        · rcases own some with early | owns
          · exact .inl (identity.trans early)
          · exact .inr ⟨by rw [identity]; exact owns.whole, by rw [identity]; exact owns.drawn⟩
        · rw [← same, none] at some
          cases some
        · exact .inr owns
  | none =>
      refine ⟨by simp, furthest, advances.trans more, ?_, by simp⟩
      rw [carried_of_none recorded] at stays ⊢
      cases still : between.coordinator.backlog with
      | none => rwa [carried_of_none still] at stays
      | some ring =>
          have some : between.coordinator.backlog.isSome = true := by simp [still]
          have same : (deed.apply between).coordinator.offset = between.coordinator.offset := by
            rw [Coordinator.offset, reforms.backlog some, Coordinator.offset]
          rw [carried_of_some some] at stays
          rwa [same]

end Stands

/-! ### What happens to a node of itself -/

/-- What a link reports is a sign of life, its failure, or how far it has come as long as it
is being established. -/
def Admits (node : Node) : Happening → Prop
  | .link epoch event =>
      node.role.accepts epoch = true →
        match event with
        | .heartbeat | .failed _ => True
        | .state state => state ≠ .connected ∧ node.role.connected = false
        | _ => False
  | _ => True

/-- The upkeep may send a ping first, and then give the stream up. -/
theorem maintain_standing (node : Node) :
    ∃ pinged : Coordinator, pinged.identity = node.coordinator.identity ∧
      pinged.supply = node.coordinator.supply ∧
      (node.pings = false → pinged.backlog = node.coordinator.backlog) ∧
      (node.coordinator.backlog = none → pinged.backlog = none) ∧
      (node.maintain.coordinator.identity = pinged.identity ∧
          node.maintain.coordinator.supply = pinged.supply ∧
          node.maintain.coordinator.backlog = pinged.backlog ∨
        node.following = false ∧
          node.maintain.coordinator.supply = pinged.supply.draw.2 ∧
          node.maintain.coordinator.backlog = none) := by
  have fed := node.coordinator.fed_ping node.clients node.clock.elapsed node.periods
  refine ⟨_, fed.identity, fed.supply, ?_, fed.unrecorded, ?_⟩
  · intro silent
    rw [ping_periods, if_neg (by simp [silent])]
  · rw [node.maintain_coordinates.1]
    simp only [Coordinator.maintain, Coordinator.expireBacklog]
    split
    · split
      · next expires =>
          refine .inr ⟨?_, ?_, rfl⟩
          · simp only [Bool.and_eq_true, Bool.not_eq_true'] at expires
            exact expires.1.1
          · simp only [Coordinator.rotateIdentity]
            rfl
      · exact .inl ⟨rfl, rfl, rfl⟩
    · exact .inl ⟨rfl, rfl, rfl⟩

/-- What a node admits does not replace its data. -/
theorem Admits.loads {happening : Happening} (admits : node.Admits happening) :
    node.loads happening = false := by
  cases happening with
  | link epoch event =>
      cases event with
      | fullSync history offset payload =>
          cases accepts : node.role.accepts epoch with
          | false => simp [Node.loads, accepts]
          | true => exact (admits accepts).elim
      | _ => rfl
  | _ => rfl

/-- What a link reports of itself is not part of the stream. -/
theorem Admits.added {epoch : Nat} {event : Link.LinkEvent} (admits : node.Admits (.link epoch event)) :
    node.added (.link epoch event) = [] := by
  cases event with
  | command arguments raw =>
      cases accepts : node.role.accepts epoch with
      | false => simp [Node.added, accepts]
      | true => exact (admits accepts).elim
  | _ => rfl

/-- What a link reports of itself changes neither the identity nor the backlog, nor that the
node follows. -/
theorem Admits.link {epoch : Nat} {event : Link.LinkEvent} (admits : node.Admits (.link epoch event)) :
    (node.handle (.link epoch event)).coordinator = node.coordinator ∧
      (node.handle (.link epoch event)).following = node.following := by
  simp only [handle]
  split
  · next accepts =>
      cases event with
      | heartbeat | state => exact ⟨rfl, rfl⟩
      | failed => exact ⟨rfl, node.role.following_reconnect⟩
      | fullSync | continued | command => exact (admits accepts).elim
  · exact ⟨rfl, rfl⟩

namespace Stands

theorem unmoved (stands : node.Stands supply annals history) (unmoved : node.Unmoved later) :
    later.Stands supply annals history where
  supplied := by
    rw [unmoved.supply]
    exact stands.supplied
  offset := by
    rw [unmoved.backlog, unmoved.offset]
    exact stands.offset
  tells := by
    rw [unmoved.backlog, unmoved.identity]
    exact stands.tells
  owns := by
    rw [unmoved.backlog, unmoved.following]
    intro recorded leads
    obtain ⟨whole, drawn⟩ := stands.owns recorded leads
    exact ⟨by rw [unmoved.identity]; exact whole, by rw [unmoved.identity]; exact drawn⟩

end Stands

/-- The annals go on as something happens to a node, and have all that is added to its stream
under the name that the stream had. -/
structure Tracks (supply : IdSupply) (annals further : Annals) (history : Chronicle) (node : Node)
    (happening : Happening) (later : Node) (whole : Chronicle) : Prop where
  advances : Annals.Advances supply annals further
  stands : later.Stands supply further whole
  known : node.coordinator.backlog.isSome = true → further.Has node.coordinator.identity.current
    (history.extend (Piece.bytes (node.added happening)))

/-- Nothing is added. -/
theorem Tracks.of_quiet {further : Annals} {happening : Happening} {whole : Chronicle}
    (stands : node.Stands supply annals history) (quiet : node.added happening = [])
    (advances : Annals.Advances supply annals further) (there : later.Stands supply further whole) :
    Tracks supply annals further history node happening later whole where
  advances := advances
  stands := there
  known := by
    intro recorded
    rw [quiet]
    have same : history.extend (Piece.bytes []) = history := Chronicle.extend_nil _
    rw [same]
    exact (stands.tells recorded).current.grows advances.grows

/-- Nothing is added to the stream. -/
def Rests (node later : Node) : Prop :=
  ∃ (before after : Node) (source : Source), node.Unmoved before ∧
    before.Becomes (Deed.Spares (fun _ => False) source) after ∧ after.Unmoved later

theorem Rests.clings (rests : node.Rests later) : node.Clings later := by
  obtain ⟨before, after, source, first, becomes, last⟩ := rests
  exact (Clings.of_unmoved first).trans (becomes.clings.trans (.of_unmoved last))

theorem Unmoved.rests (unmoved : node.Unmoved later) : node.Rests later :=
  ⟨node, node, .loader, .refl _, .refl _, unmoved⟩

namespace Stands

variable (single : ∀ left right, supply.id left = supply.id right → left = right)

include single

theorem rests (stands : node.Stands supply annals history) (rests : node.Rests later) :
    ∃ further, Annals.Advances supply annals further ∧
      later.Stands supply further (history.carried node later) := by
  obtain ⟨before, after, source, first, becomes, last⟩ := rests
  obtain ⟨_, further, advances, there, _⟩ := (stands.unmoved first).becomes single becomes
  refine ⟨further, advances, ?_⟩
  have same : history.carried node later = history.carried before after := by
    rw [Chronicle.carried, Chronicle.carried, first.backlog, last.offset]
  rw [same]
  exact there.unmoved last

theorem serve (stands : node.Stands supply annals history) (orderly : node.Orderly) (id : ClientId)
    (value : Wire.Value)
    (kept : (history.next node (.command id value) (node.serve id value)).Kept
      (node.serve id value).coordinator) :
    ∃ further, Tracks supply annals further history node (.command id value) (node.serve id value)
      (history.next node (.command id value) (node.serve id value)) := by
  rcases serves orderly id value with ⟨silent, _, ran⟩ |
    @⟨leads, database, form, added, _, _, ⟨clients, data, fed⟩, role⟩
  · have quiet : node.added (.command id value) = [] := by
      cases follows : node.following with
      | false => exact (silent follows).1
      | true =>
          simp only [Node.added, follows, if_true]
          split <;> rfl
    obtain ⟨before, after, first, becomes, last⟩ := ran
    obtain ⟨further, advances, there⟩ := stands.rests single ⟨before, after, _, first, becomes, last⟩
    rw [next_quiet rfl quiet]
    exact ⟨further, .of_quiet stands quiet advances there⟩
  · have frame := (node.coordinator.touch node.clock.elapsed id).fed_feed clients data
      (some database)
    rw [← fed] at frame
    cases recorded : node.coordinator.backlog with
    | none =>
        exact ⟨annals, .refl _, stands.of_none frame.supply (frame.unrecorded recorded) _,
          by simp [recorded]⟩
    | some backlog =>
        have some : node.coordinator.backlog.isSome = true := by simp [recorded]
        rw [Chronicle.next_of_recorded some rfl] at kept ⊢
        obtain ⟨further, advances, there, has⟩ := stands.feeds single some frame.identity frame.supply
          (fun _ => leads) kept.offset_eq (.inl (stands.owns some leads))
        exact ⟨further, advances, there, fun _ => has⟩

theorem maintain (stands : node.Stands supply annals history)
    (kept : (history.next node .upkeep node.maintain).Kept node.maintain.coordinator) :
    ∃ further, Tracks supply annals further history node .upkeep node.maintain
      (history.next node .upkeep node.maintain) := by
  obtain ⟨pinged, identity, supplied, silent, unrecorded, ends⟩ := node.maintain_standing
  have following := node.following_maintain
  cases recorded : node.coordinator.backlog with
  | none =>
      rcases ends with ⟨_, sameSupply, backlog⟩ | ⟨_, drew, gone⟩
      · exact ⟨annals, .refl _, stands.of_none (sameSupply.trans supplied)
          (backlog.trans (unrecorded recorded)) _, by simp [recorded]⟩
      · exact ⟨annals, .refl _, stands.gives_up (fun _ unknown => unknown)
          (by rw [drew, supplied]) gone _, by simp [recorded]⟩
  | some ring =>
      have some : node.coordinator.backlog.isSome = true := by simp [recorded]
      rw [Chronicle.next_of_recorded some rfl] at kept ⊢
      rcases ends with ⟨sameIdentity, sameSupply, backlog⟩ | ⟨leads, drew, gone⟩
      · rw [identity] at sameIdentity
        rw [supplied] at sameSupply
        cases pings : node.pings with
        | false =>
            have quiet : node.added .upkeep = [] := by simp [Node.added, pings]
            have reforms : node.Reforms node.maintain :=
              .keeps sameIdentity sameSupply (backlog.trans (silent pings)) (following ▸ ·)
            obtain ⟨further, advances, there, _⟩ := stands.reforms single reforms
            rw [carried_of_some some] at there
            refine ⟨further, .of_quiet stands quiet advances ?_⟩
            rw [quiet]
            simpa using there
        | true =>
            obtain ⟨further, advances, there, has⟩ := stands.feeds single some sameIdentity sameSupply
              (following ▸ ·) kept.offset_eq (.inl (stands.owns some (pings_leads pings)))
            exact ⟨further, advances, there, fun _ => has⟩
      · -- A ping may have been sent under the id that is given up.
        obtain ⟨further, advances, whole, still⟩ :=
          (stands.owns some leads).feeds single (Piece.bytes (node.added .upkeep))
        exact ⟨further, advances, stands.gives_up still (by rw [drew, supplied]) gone _,
          fun _ => ⟨_, whole, .refl _⟩⟩

/-- Whatever happens to a node of itself, it stands in the annals as before. -/
theorem next (stands : node.Stands supply annals history) (orderly : node.Orderly)
    {happening : Happening} (admits : node.Admits happening)
    (happened : node.next? happening = some later)
    (kept : (history.next node happening later).Kept later.coordinator) :
    ∃ further, Tracks supply annals further history node happening later
      (history.next node happening later) := by
  cases happening with
  | command id value =>
      cases happened
      exact stands.serve single orderly id value kept
  | upkeep =>
      cases happened
      exact stands.maintain single kept
  | link epoch event =>
      cases happened
      obtain ⟨coordinator, following⟩ := admits.link
      rw [next_quiet admits.loads admits.added]
      have reforms : node.Reforms (node.handle (.link epoch event)) :=
        .keeps (by rw [coordinator]) (by rw [coordinator]) (by rw [coordinator]) (following ▸ ·)
      obtain ⟨further, advances, there, _⟩ := stands.reforms single reforms
      exact ⟨further, .of_quiet stands admits.added advances there⟩
  | connected | disconnected | advance | setWall | task | report | setStorage | refuse | hangUp
  | deliver | deliverToLeader =>
      rw [next_quiet rfl rfl]
      obtain ⟨further, advances, there⟩ := stands.rests single (unmoved_next happened rfl).rests
      exact ⟨further, .of_quiet stands rfl advances there⟩

end Stands
/-! ### Going on following -/

theorem role_maintain (node : Node) :
    node.maintain.role =
      node.role.maintain node.clock.elapsed node.syncRequest (1000 * node.settings.timeout) := by
  simp only [maintain]
  split <;> rfl

/-- The upkeep leaves the stream of a follower alone. -/
theorem maintain_follower (follows : node.following = true) :
    node.maintain.coordinator.identity = node.coordinator.identity ∧
      node.maintain.coordinator.backlog = node.coordinator.backlog := by
  obtain ⟨pinged, identity, _, silent, _, ends⟩ := node.maintain_standing
  have quiet : node.pings = false := by
    cases pings : node.pings with
    | false => rfl
    | true =>
        rw [pings_leads pings] at follows
        cases follows
  rcases ends with ⟨sameIdentity, _, backlog⟩ | ⟨leads, _⟩
  · exact ⟨sameIdentity.trans identity, backlog.trans (silent quiet)⟩
  · rw [leads] at follows
    cases follows

theorem clings_maintain (node : Node) : node.Clings node.maintain := by
  have following := node.following_maintain
  rcases node.role.maintain_cases node.clock.elapsed node.syncRequest (1000 * node.settings.timeout)
    with alike | ⟨epoch, link⟩
  · rw [← role_maintain] at alike
    refine ⟨Nat.le_of_eq alike.epoch.symm, fun _ => ⟨?_, following⟩,
      fun _ follows _ => maintain_follower follows, fun pledged => ⟨fun follows link opened apart id asked => ?_⟩⟩
    · rw [Link.Role.connected, alike.state, Link.Role.connected]
    · rw [following] at follows
      obtain ⟨identity, backlog⟩ := maintain_follower follows
      obtain ⟨before, found, request⟩ : ∃ before, node.role.link = some before ∧
          before.request = link.request := by
        have request := alike.request
        rw [opened] at request
        exact Option.map_eq_some_iff.mp request.symm
      rw [← request] at asked ⊢
      rw [Coordinator.offset, backlog, identity, ← Coordinator.offset]
      refine pledged.asks follows before found ?_ id asked
      rw [← apart, Link.Role.connected, Link.Role.connected, alike.state]
  · rw [← role_maintain] at epoch link
    refine ⟨Nat.le_of_lt epoch, fun same => absurd same (Nat.ne_of_gt epoch),
      fun same => absurd same (Nat.ne_of_gt epoch), fun _ => ⟨fun follows opened found _ id asked => ?_⟩⟩
    rw [following] at follows
    obtain ⟨identity, backlog⟩ := maintain_follower follows
    have request : opened.request = node.syncRequest := link opened found
    rw [request] at asked ⊢
    obtain ⟨ring, recorded, named⟩ := Option.map_eq_some_iff.mp asked
    rw [Coordinator.offset, backlog, identity]
    exact ⟨by rw [recorded]; rfl, named.symm, rfl⟩

theorem Clings.next (orderly : node.Orderly) {happening : Happening} (admits : node.Admits happening)
    (happened : node.next? happening = some later) : node.Clings later := by
  cases happening with
  | command id value =>
      cases happened
      rcases serves orderly id value with ⟨_, _, before, after, first, becomes, last⟩ |
        @⟨leads, _, _, _, _, _, _, role⟩
      · exact Rests.clings ⟨before, after, _, first, becomes, last⟩
      · have following : (node.serve id value).following = node.following := by
          rw [Node.following, role]
          rfl
        refine ⟨Nat.le_of_eq (congrArg (·.epoch) role.symm), fun _ => ⟨congrArg (·.connected) role,
          following⟩, fun _ follows => ?_, fun _ => ⟨fun follows => ?_⟩⟩
        · rw [leads] at follows
          cases follows
        · have same : node.following = true := following.symm.trans follows
          rw [leads] at same
          cases same
  | upkeep =>
      cases happened
      exact clings_maintain node
  | link epoch event =>
      cases happened
      simp only [handle]
      split
      · next accepts =>
          cases event with
          | heartbeat => exact .of_unmoved ⟨rfl, rfl, rfl, Link.Role.alike_touch ..⟩
          | failed =>
              refine .of_dropped ?_ ?_
              · exact node.role.reconnect_dropped.1
              · exact node.role.reconnect_dropped.2
          | state state =>
              obtain ⟨early, apart⟩ := admits accepts
              have still : (node.role.setState node.clock.elapsed state).connected = false := by
                simpa [Link.Role.setState, Link.Role.connected] using early
              refine ⟨Nat.le_refl _, fun _ => ⟨still.trans apart.symm, rfl⟩, fun _ _ _ => ⟨rfl, rfl⟩,
                fun pledged => ⟨fun follows link opened _ id asked => ?_⟩⟩
              exact pledged.asks follows link opened apart id asked
          | fullSync | continued | command => exact (admits accepts).elim
      · exact .refl node
  | connected | disconnected | advance | setWall | task | report | setStorage | refuse | hangUp
  | deliver | deliverToLeader => exact .of_unmoved (unmoved_next happened rfl)

end Node
end ReplicaStore
