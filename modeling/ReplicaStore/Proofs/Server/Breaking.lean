import ReplicaStore.Proofs.Wire.Framing
import ReplicaStore.Server.Basic

/-!
# Streams that break the format

A connection is served until its bytes break the format.  The frames of one read are handed on
together, and none of them where an error stands behind them: the frames that end in the read
that shows the error are lost, and only these.  So how many commands in front of an error are
carried out depends on how the stream was split into reads: all of them where it comes byte by
byte, none where it comes at once.
-/

namespace ReplicaStore.Wire

variable {frames others : List (Frame × Bytes)} {left rest buffer : Bytes} {error : WireError}

/-! ### The frames of a stream -/

theorem readFrames_of_stops (all : ∀ frame ∈ frames, IsFrame frame.1 frame.2)
    (stops : ∀ frame rest, readFrame left ≠ .found frame rest) :
    (readFrames (frames.flatMap (·.2) ++ left)).frames = frames ∧
      (readFrames (frames.flatMap (·.2) ++ left)).left = left := by
  rw [readFrames, readFramesFrom_flatMap all, readFramesFrom_eq]
  cases read : readFrame left with
  | more => simp
  | bad error => simp
  | found frame rest => exact absurd read (stops frame rest)

/-- A stream is cut into frames, and bytes that begin with none, in one way only. -/
theorem frames_unique (all : ∀ frame ∈ frames, IsFrame frame.1 frame.2)
    (stops : ∀ frame behind, readFrame left ≠ .found frame behind)
    (allOthers : ∀ frame ∈ others, IsFrame frame.1 frame.2)
    (stopsOthers : ∀ frame behind, readFrame rest ≠ .found frame behind)
    (same : frames.flatMap (·.2) ++ left = others.flatMap (·.2) ++ rest) :
    frames = others ∧ left = rest := by
  obtain ⟨framesOf, leftOf⟩ := readFrames_of_stops all stops
  obtain ⟨othersOf, restOf⟩ := readFrames_of_stops allOthers stopsOthers
  exact ⟨framesOf.symm.trans (same ▸ othersOf), leftOf.symm.trans (same ▸ restOf)⟩

/-- Where the reads of a stream show that it breaks the format behind some frames: which frames
come with the reads before, and which end in the read that shows the error. -/
structure Breach (buffer : Bytes) (frames : List (Frame × Bytes)) (error : WireError)
    (reads : List Bytes) where
  given : List (Frame × Bytes)
  lost : List (Frame × Bytes)
  before : List Bytes
  read : Bytes
  later : List Bytes
  /-- What the reads before leave in the buffer. -/
  rest : Bytes
  /-- What begins with the error. -/
  broken : Bytes
  parts : frames = given ++ lost
  split : reads = before ++ read :: later
  early : buffer ++ before.flatten = given.flatMap (·.2) ++ rest
  waits : readFrame rest = .more
  ending : rest ++ read = lost.flatMap (·.2) ++ broken
  bad : readFrame broken = .bad error

/-- Some read shows the error.  The induction is on the reads; what is left between them begins
with no frame. -/
theorem exists_breach (all : ∀ frame ∈ frames, IsFrame frame.1 frame.2)
    (breaks : readFrame left = .bad error) (waits : readFrame buffer = .more)
    {reads : List Bytes} (whole : buffer ++ reads.flatten = frames.flatMap (·.2) ++ left) :
    Nonempty (Breach buffer frames error reads) := by
  have stops : ∀ frame behind, readFrame left ≠ .found frame behind := by simp [breaks]
  have noFrames : ∀ frame ∈ ([] : List (Frame × Bytes)), IsFrame frame.1 frame.2 := by simp
  induction reads generalizing buffer frames with
  | nil =>
      rw [List.flatten_nil, List.append_nil] at whole
      have waiting : ∀ frame behind, readFrame buffer ≠ .found frame behind := by simp [waits]
      obtain ⟨_, rfl⟩ := frames_unique all stops noFrames waiting
        (by rw [← whole, List.flatMap_nil, List.nil_append])
      rw [waits] at breaks
      cases breaks
  | cons read reads ih =>
      obtain ⟨first, between, cut, _, allFirst, stopsFirst⟩ := exists_frames (buffer ++ read)
      rw [List.flatten_cons, ← List.append_assoc, cut, List.append_assoc] at whole
      cases run : readFrame between with
      | found frame rest => exact absurd run (stopsFirst frame rest)
      | bad early =>
          have still := settled_readFrame.bad run reads.flatten
          have ends : ∀ frame behind, readFrame (between ++ reads.flatten) ≠ .found frame behind := by
            simp [still]
          obtain ⟨rfl, rfl⟩ := frames_unique all stops allFirst ends whole.symm
          rw [still] at breaks
          cases breaks
          exact ⟨{
            given := [], lost := frames, before := [], read, later := reads, rest := buffer
            broken := between, parts := rfl, split := rfl, early := by simp, waits, ending := cut
            bad := run }⟩
      | more =>
          obtain ⟨behind, last, cutBehind, _, allBehind, stopsBehind⟩ :=
            exists_frames (between ++ reads.flatten)
          have both : ∀ frame ∈ first ++ behind, IsFrame frame.1 frame.2 := by
            intro frame member
            rcases List.mem_append.mp member with early | late
            · exact allFirst frame early
            · exact allBehind frame late
          obtain ⟨rfl, rfl⟩ := frames_unique all stops both stopsBehind
            (by rw [← whole, cutBehind, List.flatMap_append, List.append_assoc])
          obtain ⟨breach⟩ := ih allBehind run cutBehind
          exact ⟨{ breach with
            given := first ++ breach.given
            before := read :: breach.before
            parts := (congrArg (first ++ ·) breach.parts).trans (List.append_assoc ..).symm
            split := congrArg (read :: ·) breach.split
            early := by
              rw [List.flatten_cons, ← List.append_assoc, cut, List.append_assoc, breach.early,
                List.flatMap_append, List.append_assoc] }⟩

namespace Breach

variable {reads : List Bytes} (breach : Breach buffer frames error reads)

theorem read_mem : breach.read ∈ reads :=
  (congrArg (breach.read ∈ ·) breach.split).mpr (by simp)

/-- The reads before give just the frames that come with them. -/
theorem takeEach_before (all : ∀ frame ∈ frames, IsFrame frame.1 frame.2)
    (waits : readFrame buffer = .more) :
    ∃ pieces : List (List (Frame × Bytes)),
      takeEach buffer breach.before = (pieces.map .ok, breach.rest) ∧ pieces.flatten = breach.given :=
  takeEach_of_ok waits (breach.early ▸ takeFrames_more
    (fun frame member => all frame (breach.parts ▸ List.mem_append_left breach.lost member))
    breach.waits)

/-- The read that shows the error gives none of the frames that end in it, and leaves none. -/
theorem takeFrames_read (all : ∀ frame ∈ frames, IsFrame frame.1 frame.2) :
    takeFrames (breach.rest ++ breach.read) = (.error error, breach.broken) :=
  breach.ending ▸ takeFrames_bad
    (fun frame member => all frame (breach.parts ▸ List.mem_append_right breach.given member))
    breach.bad

end Breach

/-! ### What is handed on -/

/-- A number of reads without an error begins with one. -/
theorem takeEach_cons_inv {read : Bytes} {reads : List Bytes} {parts : List (List (Frame × Bytes))}
    (taken : takeEach buffer (read :: reads) = (parts.map .ok, rest)) :
    ∃ part others between, parts = part :: others ∧
      takeFrames (buffer ++ read) = (.ok part, between) ∧
      takeEach between reads = (others.map .ok, rest) := by
  rw [takeEach] at taken
  cases first : takeFrames (buffer ++ read) with
  | mk result between =>
      cases more : takeEach between reads with
      | mk results last =>
          simp only [first, more] at taken
          cases parts with
          | nil => cases taken
          | cons part others =>
              cases taken
              exact ⟨part, others, between, rfl, rfl, more⟩

/-- The frames that are handed on of a number of reads, and the error with which that ended. -/
def handOn (buffer : Bytes) : List Bytes → List (Frame × Bytes) × Option WireError
  | [] => ([], none)
  | read :: reads =>
      match takeFrames (buffer ++ read) with
      | (.error error, _) => ([], some error)
      | (.ok frames, left) =>
          let (others, error) := handOn left reads
          (frames ++ others, error)

theorem handOn_append {before : List Bytes} {parts : List (List (Frame × Bytes))}
    (taken : takeEach buffer before = (parts.map .ok, rest)) (reads : List Bytes) :
    handOn buffer (before ++ reads) =
      (parts.flatten ++ (handOn rest reads).1, (handOn rest reads).2) := by
  induction before generalizing buffer parts with
  | nil =>
      cases parts with
      | nil =>
          cases taken
          rfl
      | cons part parts => cases taken
  | cons read before ih =>
      obtain ⟨part, others, between, rfl, first, more⟩ := takeEach_cons_inv taken
      rw [List.cons_append, handOn, first]
      dsimp only
      rw [ih more, List.flatten_cons, List.append_assoc]

/-- Of a stream that breaks the format behind some frames, the frames are handed on that come
with the reads before the one that shows the error. -/
theorem handOn_breach (all : ∀ frame ∈ frames, IsFrame frame.1 frame.2)
    (waits : readFrame buffer = .more) {reads : List Bytes}
    (breach : Breach buffer frames error reads) :
    handOn buffer reads = (breach.given, some error) := by
  obtain ⟨pieces, each, together⟩ := breach.takeEach_before all waits
  have shows : handOn breach.rest (breach.read :: breach.later) = ([], some error) := by
    rw [handOn, breach.takeFrames_read all]
  rw [congrArg (handOn buffer) breach.split, handOn_append each, together, shows, List.append_nil]

/-- A read of one byte loses no frame: one that ends with it leaves nothing to break the format. -/
theorem Breach.lost_eq_nil (all : ∀ frame ∈ frames, IsFrame frame.1 frame.2) {reads : List Bytes}
    (breach : Breach buffer frames error reads) {byte : UInt8} (single : breach.read = [byte]) :
    breach.lost = [] := by
  cases lost : breach.lost with
  | nil => rfl
  | cons first others =>
      exfalso
      have isFrame : IsFrame first.1 first.2 := all first (by rw [breach.parts, lost]; simp)
      have nothing : breach.broken ≠ [] := by
        intro none
        have bad := breach.bad
        rw [none] at bad
        cases bad
      have inside : first.2 ++ (others.flatMap (·.2) ++ breach.broken) = breach.rest ++ [byte] := by
        rw [← single, breach.ending, lost, List.flatMap_cons, List.append_assoc]
      have short : first.2.length ≤ breach.rest.length := by
        have sizes := congrArg List.length inside
        have positive := List.length_pos_iff.mpr nothing
        simp only [List.length_append, List.length_singleton] at sizes
        omega
      obtain ⟨behind, front⟩ : first.2 <+: breach.rest :=
        List.prefix_of_prefix_length_le ⟨_, inside⟩ (List.prefix_append breach.rest [byte]) short
      have waits := breach.waits
      rw [← front, isFrame behind] at waits
      cases waits

/-- What is handed on of a stream that breaks the format depends on how it is split into reads;
the error does not.  Byte by byte everything is handed on that stands before the error, and at
once nothing is. -/
theorem handOn_of_bad (all : ∀ frame ∈ frames, IsFrame frame.1 frame.2)
    (breaks : readFrame left = .bad error) :
    (∀ reads : List Bytes, reads.flatten = frames.flatMap (·.2) ++ left →
        ∃ breach : Breach [] frames error reads, handOn [] reads = (breach.given, some error)) ∧
      handOn [] ((frames.flatMap (·.2) ++ left).map fun byte => [byte]) = (frames, some error) ∧
      handOn [] [frames.flatMap (·.2) ++ left] = ([], some error) := by
  have start : readFrame [] = .more := rfl
  refine ⟨fun reads whole => ?_, ?_, ?_⟩
  · obtain ⟨breach⟩ := exists_breach all breaks start whole
    exact ⟨breach, handOn_breach all start breach⟩
  · have bytes : ((frames.flatMap (·.2) ++ left).map fun byte => [byte]).flatten =
        frames.flatMap (·.2) ++ left := by
      rw [← List.flatMap_def, List.flatMap_singleton']
    obtain ⟨breach⟩ := exists_breach all breaks start bytes
    obtain ⟨byte, _, single⟩ := List.mem_map.mp breach.read_mem
    have parts := breach.parts
    rw [breach.lost_eq_nil all single.symm, List.append_nil] at parts
    rw [handOn_breach all start breach, ← parts]
  · rw [handOn, List.nil_append, takeFrames_bad all breaks]

/-- A command and an integer that is none: the command is handed on if it comes with a read of
its own, and not if both come at once. -/
theorem handOn_depends_on_reads :
    ∃ reads others : List Bytes, reads.flatten = others.flatten ∧
      handOn [] reads = ([(.value (.command ["PING"]), Bytes.ofText "PING\r\n")],
        some .invalidInteger) ∧
      handOn [] others = ([], some .invalidInteger) := by
  have all : ∀ frame ∈ [(Frame.value (.command ["PING"]), Bytes.ofText "PING\r\n")],
      IsFrame frame.1 frame.2 := by
    intro frame member rest
    rw [List.mem_singleton] at member
    subst member
    have words : Bytes.splitNewline (Bytes.ofText "PING\r\n" ++ rest) =
        some (Bytes.ofText "PING\r", rest) := rfl
    have read : readWords (Bytes.ofText "PING\r\n" ++ rest) =
        .found (.value (.command ["PING"])) rest := by
      simp only [readWords, words, Bytes.text?_ofText]
      rfl
    exact read
  have breaks : readFrame (Bytes.ofText ":x\r\n") = .bad .invalidInteger := by
    have token : readToken (Bytes.ofText ":x\r\n") = .bad .invalidInteger :=
      @readToken_line 58 "x" (by decide) []
    have value : readValue [] (Bytes.ofText ":x\r\n") = .bad .invalidInteger := by
      rw [readValue_eq, token]
    have written : Bytes.ofText ":x\r\n" = 58 :: [120, 13, 10] := rfl
    rw [written] at value ⊢
    rw [readFrame, if_pos (by decide), value]
  obtain ⟨_, apart, together⟩ := handOn_of_bad all breaks
  exact ⟨_, _, by rw [← List.flatMap_def, List.flatMap_singleton', List.flatten_singleton], apart,
    together⟩

end ReplicaStore.Wire

/-! ### What is carried out -/

namespace ReplicaStore.Server

open ReplicaStore.Wire (Frame IsFrame WireError readFrame takeEach takeFrames)

variable {server : Server} {id : ClientId} {frames : List (Frame × Bytes)} {left : Bytes}
  {error : WireError}

/-- Tells a client that its bytes break the format, and closes its connection. -/
def breakOff (node : Node) (id : ClientId) (error : WireError) : Node :=
  { node with clients := (node.clients.send id (Bytes.ofText error.reply)).close id }

theorem serveFrames_append (node : Node) (id : ClientId) (first second : List (Frame × Bytes)) :
    serveFrames node id (first ++ second) = serveFrames (serveFrames node id first) id second :=
  List.foldl_append

theorem receive_ok {before bytes : Bytes} (unread : server.unread[id]? = some before)
    (taken : takeFrames (before ++ bytes) = (.ok frames, left)) :
    (server.receive id bytes).node = serveFrames server.node id frames ∧
      (server.receive id bytes).unread[id]? = some left := by
  simp only [receive, unread, taken, Std.ExtTreeMap.getElem?_insert_self, and_self]

/-- Reads without an error are served one after the other as if their frames had come at once. -/
theorem receive_each {before : Bytes} (unread : server.unread[id]? = some before)
    {reads : List Bytes} {parts : List (List (Frame × Bytes))}
    (taken : takeEach before reads = (parts.map .ok, left)) :
    (reads.foldl (fun server read => server.receive id read) server).node =
        serveFrames server.node id parts.flatten ∧
      (reads.foldl (fun server read => server.receive id read) server).unread[id]? =
        some left := by
  induction reads generalizing server before parts with
  | nil =>
      cases parts with
      | nil =>
          cases taken
          exact ⟨rfl, unread⟩
      | cons part parts => cases taken
  | cons read reads ih =>
      obtain ⟨part, others, between, rfl, first, more⟩ := Wire.takeEach_cons_inv taken
      obtain ⟨node, kept⟩ := receive_ok unread first
      obtain ⟨served, stays⟩ := ih kept more
      refine ⟨?_, stays⟩
      rw [List.foldl_cons, served, node, List.flatten_cons, serveFrames_append]

/-- A connection is served up to the read that shows an error.  The commands of the reads before
it have been carried out then, and nothing of this read has, although the commands in it that
stand before the error have been taken out of the buffer. -/
theorem receive_breaking (unread : server.unread[id]? = some [])
    (all : ∀ frame ∈ frames, IsFrame frame.1 frame.2) (breaks : readFrame left = .bad error)
    {reads : List Bytes} (whole : reads.flatten = frames.flatMap (·.2) ++ left) :
    ∃ breach : Wire.Breach [] frames error reads,
      ((breach.before ++ [breach.read]).foldl (fun server read => server.receive id read) server).node =
        breakOff (serveFrames server.node id breach.given) id error ∧
      ((breach.before ++ [breach.read]).foldl
        (fun server read => server.receive id read) server).unread[id]? = some breach.broken := by
  have start : readFrame [] = .more := rfl
  obtain ⟨breach⟩ := Wire.exists_breach all breaks start whole
  obtain ⟨pieces, each, together⟩ := breach.takeEach_before all start
  have shows := breach.takeFrames_read all
  obtain ⟨served, kept⟩ := receive_each unread each
  rw [together] at served
  refine ⟨breach, ?_, ?_⟩
  · rw [List.foldl_append, List.foldl_cons, List.foldl_nil, receive]
    simp only [kept, shows, served, breakOff]
  · rw [List.foldl_append, List.foldl_cons, List.foldl_nil, receive]
    simp only [kept, shows, Std.ExtTreeMap.getElem?_insert_self]

end ReplicaStore.Server
