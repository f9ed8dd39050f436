import ReplicaStore.Command.Basic

/-!
# Commands about the connection itself, and messages between connections
-/

namespace ReplicaStore.Command

open CommandM

/-- `PING [message]`. -/
def ping : Handler
  | [] => return [.simple "PONG"]
  | [message] => return [.bulk message]
  | _ => throw (.wrongArity "ping")

/-- `ECHO message`. -/
def echo : Handler
  | message :: _ => return [.bulk message]
  | [] => throw (.wrongArity "echo")

/-- `SELECT index`: chooses the database that the session works on. -/
def select : Handler
  | [index] => do
      let index ← integer index
      if 0 ≤ index ∧ index < (← node).partitions.count then
        changeSession fun session => { session with database := index.toNat }
        ok
      else throw .noSuchDatabase
  | _ => throw (.wrongArity "select")

/-- `PUBLISH channel message`: the number of listeners who got the message. -/
def publish : Handler
  | [channel, message] => do
      let node ← node
      let listeners := node.channels.listeners channel
      let bytes := (Wire.Value.strings ["message", channel, message]).toBytes
      changeNode fun node => { node with clients := node.clients.sendAll listeners bytes }
      count (listeners.countP (node.clients.reaches ·))
  | _ => throw (.wrongArity "publish")

/-- What a client is told about one of its subscriptions: the channel, and how many
it has now. -/
def confirmation (kind : String) (channel : Option String) (count : Nat) : Wire.Value :=
  .array [.bulk kind, (channel.map Wire.Value.bulk).getD .null, .integer count]

/-- The channels that a client listens to, in order. -/
def subscriptions (id : ClientId) (node : Node) : List String :=
  (node.clients[id]?.map (·.subscriptions.toList)).getD []

/-- Subscribes a client to a channel, or takes it out. -/
def changeSubscription (id : ClientId) (channel : String) (listen : Bool) (node : Node) : Node :=
  { node with
    channels :=
      if listen then node.channels.subscribe channel id else node.channels.unsubscribe channel id
    clients := node.clients.modify id fun client =>
      { client with
        subscriptions :=
          if listen then client.subscriptions.insert channel
          else client.subscriptions.erase channel } }

/-- Changes the subscriptions to several channels, each of which is confirmed. -/
def changeSubscriptions (id : ClientId) (kind : String) (listen : Bool) (channels : List String) :
    CommandM Reply :=
  channels.mapM fun channel => (do
    changeNode (changeSubscription id channel listen)
    let current := subscriptions id (← node)
    return confirmation kind (some channel) current.length : CommandM Wire.Value)

/-- `SUBSCRIBE channel...`. -/
def subscribe : Handler := fun channels => do
  if channels.isEmpty then throw (.wrongArity "subscribe")
  match (← session).source with
  | .client id => changeSubscriptions id "subscribe" true channels
  | _ => return []

/-- `UNSUBSCRIBE [channel...]`: without channels, all of them. -/
def unsubscribe : Handler := fun channels => do
  match (← session).source with
  | .client id =>
      let current := subscriptions id (← node)
      let chosen := if channels.isEmpty then current else channels
      if chosen.isEmpty then return [confirmation "unsubscribe" none 0]
      else changeSubscriptions id "unsubscribe" false chosen
  | _ => return []

end ReplicaStore.Command
