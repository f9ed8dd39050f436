import ReplicaStore.Clients

/-!
# Channels

Who listens to which channel.  Each client also keeps the channels it listens to, so
that a closed connection can be taken out of all of them.  A channel without
listeners does not exist.
-/

namespace ReplicaStore

/-- The listeners of each channel. -/
abbrev Channels := Std.ExtTreeMap String (Std.ExtTreeSet ClientId)

namespace Channels

/-- The listeners of a channel, in order. -/
def listeners (channels : Channels) (channel : String) : List ClientId :=
  (channels[channel]?.map (·.toList)).getD []

def subscribe (channels : Channels) (channel : String) (id : ClientId) : Channels :=
  channels.insert channel ((channels[channel]?.getD ∅).insert id)

def unsubscribe (channels : Channels) (channel : String) (id : ClientId) : Channels :=
  match channels[channel]? with
  | none => channels
  | some listeners =>
      let others := listeners.erase id
      if others.isEmpty then channels.erase channel else channels.insert channel others

/-- Takes a client out of several channels. -/
def unsubscribeAll (channels : Channels) (names : List String) (id : ClientId) : Channels :=
  names.foldl (fun channels name => channels.unsubscribe name id) channels

end Channels
end ReplicaStore
