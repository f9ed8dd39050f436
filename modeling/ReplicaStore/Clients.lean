import ReplicaStore.Bytes
import Std.Data.ExtTreeMap
import Std.Data.ExtTreeSet

/-!
# Clients

The connections of a node and what is queued for each of them.  A queue is written
by the node and read by whoever drives the connection; once nobody reads it any more
(`Client.reading`), nothing can be queued, although the node may not have been told
yet that the connection is gone.
-/

namespace ReplicaStore

/-- The number by which a node knows a connection. -/
abbrev ClientId := Nat

/-- What can be queued for a connection. -/
inductive Outgoing where
  | data (bytes : Bytes)
  /-- Close the connection once everything in front of this has been sent. -/
  | close
  deriving DecidableEq, Repr

/-- A connection as its node sees it. -/
structure Client where
  address : String
  database : Nat := 0
  /-- The port on which a replica says that it listens. -/
  listeningPort : Option Nat := none
  subscriptions : Std.ExtTreeSet String := ∅
  /-- Whether somebody still reads the queue. -/
  reading : Bool := true
  queue : Array Outgoing := #[]
  deriving Repr

/-- The host part of an address: what stands before its last colon. -/
def hostOf (address : String) : String :=
  match (address.toList.reverse).dropWhile (· != ':') with
  | [] => address
  | _ :: host => String.ofList host.reverse

/-- The host from which a client is connected. -/
def Client.host (client : Client) : String :=
  hostOf client.address

/-- All connections of a node by number. -/
abbrev Clients := Std.ExtTreeMap ClientId Client

namespace Clients

/-- Whether something queued for this client now would be read. -/
def reaches (clients : Clients) (id : ClientId) : Bool :=
  clients[id]?.any (·.reading)

/-- Queues a message, unless the client is gone or nobody reads its queue. -/
def queue (clients : Clients) (id : ClientId) (message : Outgoing) : Clients :=
  clients.modify id fun client =>
    if client.reading then { client with queue := client.queue.push message } else client

/-- Queues bytes. -/
def send (clients : Clients) (id : ClientId) (bytes : Bytes) : Clients :=
  clients.queue id (.data bytes)

/-- Queues the same bytes for several clients. -/
def sendAll (clients : Clients) (ids : List ClientId) (bytes : Bytes) : Clients :=
  ids.foldl (fun clients id => clients.send id bytes) clients

/-- Asks for a connection to be closed. -/
def close (clients : Clients) (id : ClientId) : Clients :=
  clients.queue id .close

/-- Asks for several connections to be closed. -/
def closeAll (clients : Clients) (ids : List ClientId) : Clients :=
  ids.foldl close clients

/-- Stops reading a client's queue. -/
def hangUp (clients : Clients) (id : ClientId) : Clients :=
  clients.modify id fun client => { client with reading := false }

/-- Takes what is queued for all clients, in their order. -/
def takeQueued (clients : Clients) : List (ClientId × List Outgoing) × Clients :=
  ((clients.toList.filter fun (_, client) => !client.queue.isEmpty).map
      fun (id, client) => (id, client.queue.toList),
    clients.map fun _ client => { client with queue := #[] })

end Clients
end ReplicaStore
