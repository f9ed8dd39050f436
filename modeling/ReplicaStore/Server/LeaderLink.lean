import ReplicaStore.Server.Basic

/-!
# The server's link to its leader

The node decides when a link is opened and when it is given up; the dialogue on it is
led here.  What the dialogue reports reaches the node under the epoch of the link, and
nothing of it is carried out any more once the node has given that link up.
-/

namespace ReplicaStore.Server

/-- The link that the node has or wants to have, and its epoch. -/
def wantedLink? (server : Server) : Option (Nat × Link.OpenLink) :=
  server.node.role.link.map fun link => (server.node.role.epoch, link)

/-- The dialogue on the node's current link. -/
def dialogue? (server : Server) : Option (Nat × Link.Dialogue) :=
  server.dialogue.filter fun (epoch, _) => epoch == server.node.role.epoch

/-- Carries out actions on the link with an epoch until the node gives the link up.  The
result is the actions that were carried out; what they send is left to be sent. -/
def perform (epoch : Nat) (node : Node) : List Link.Action → List Link.Action × Node
  | [] => ([], node)
  | action :: later =>
      if node.role.epoch = epoch then
        let reported := match action with
          | .report event => node.handle (.link epoch event)
          | .send _ => node
        let (done, node) := perform epoch reported later
        (action :: done, node)
      else ([], node)

/-- Carries out a turn of a dialogue.  A dialogue that ended is reported as failed. -/
def takeTurn (server : Server) (epoch : Nat) (turn : Link.Turn) : List Link.Action × Server :=
  let ending : List Link.Action := match turn.result with
    | .ok _ => []
    | .error error => [.report (.failed error.message)]
  let (done, node) := perform epoch server.node (turn.actions ++ ending)
  (done,
    { server with node, dialogue := turn.result.toOption.map fun dialogue => (epoch, dialogue) })

/-- Begins the dialogue on the link that the node wants, which has been opened. -/
def linkOpened (server : Server) : List Link.Action × Server :=
  match server.wantedLink? with
  | none => ([], server)
  | some (epoch, link) =>
      server.takeTurn epoch ⟨Link.Dialogue.greeting, .ok { request := link.request }⟩

/-- Takes bytes that arrived on the current link. -/
def linkReceived (server : Server) (bytes : Bytes) : List Link.Action × Server :=
  match server.dialogue? with
  | none => ([], server)
  | some (epoch, dialogue) => server.takeTurn epoch (dialogue.receive bytes)

/-- Takes notice that the link with an epoch could not be opened or has come to an
end.  Of a link that was given up before, there is nothing to say. -/
def linkEnded (server : Server) (epoch : Nat) (error : Link.LinkError) :
    List Link.Action × Server :=
  if server.node.role.epoch = epoch then server.takeTurn epoch ⟨[], .error error⟩
  else ([], server)

/-- Hands out what the node has queued for its leader.  It has to wait until the stream
has begun. -/
def takeLinkQueue (server : Server) : List Bytes × Server :=
  match server.dialogue?, server.node.role.link with
  | some (_, dialogue), some link =>
      if dialogue.stage = .stream then
        (link.queue,
          { server with
            node := { server.node with
              role := { server.node.role with link := some { link with queue := [] } } } })
      else ([], server)
  | _, _ => ([], server)

end ReplicaStore.Server
