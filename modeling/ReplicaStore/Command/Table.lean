import ReplicaStore.Command.Connection
import ReplicaStore.Command.Debug
import ReplicaStore.Command.Info
import ReplicaStore.Command.Lists
import ReplicaStore.Command.Replication
import ReplicaStore.Command.Strings

/-!
# All commands
-/

namespace ReplicaStore.Command

/-- All commands but `DEBUG`, which can run some of these. -/
def basic : List Command :=
  [ ⟨"PING", -1, .read, ping⟩,
    ⟨"ECHO", 2, .read, echo⟩,
    ⟨"SELECT", 2, .read, select⟩,
    ⟨"GET", 2, .read, get⟩,
    ⟨"MGET", -2, .read, mget⟩,
    ⟨"SET", -3, .write, set⟩,
    ⟨"MSET", -3, .write, mset⟩,
    ⟨"DEL", -2, .write, del⟩,
    ⟨"EXISTS", -2, .read, countExisting⟩,
    ⟨"DBSIZE", 1, .read, dbsize⟩,
    ⟨"PEXPIREAT", 3, .write, pexpireat⟩,
    ⟨"FLUSHALL", -1, .write, flushall⟩,
    ⟨"LPUSH", -3, .write, lpush⟩,
    ⟨"RPUSH", -3, .write, rpush⟩,
    ⟨"LPUSHX", -3, .write, lpushx⟩,
    ⟨"RPUSHX", -3, .write, rpushx⟩,
    ⟨"LRANGE", 4, .read, lrange⟩,
    ⟨"LLEN", 2, .read, llen⟩,
    ⟨"LPOP", -2, .write, lpop⟩,
    ⟨"SAVE", 1, .admin, save⟩,
    ⟨"BGSAVE", -1, .admin, bgsave⟩,
    ⟨"INFO", -1, .read, info⟩,
    ⟨"REPLICAOF", 3, .admin, replicaof⟩,
    ⟨"SLAVEOF", 3, .admin, replicaof⟩,
    ⟨"REPLCONF", -1, .admin, replconf⟩,
    ⟨"PSYNC", 3, .admin, psync⟩,
    ⟨"PUBLISH", 3, .broadcast, publish⟩,
    ⟨"SUBSCRIBE", -2, .read, subscribe⟩,
    ⟨"UNSUBSCRIBE", -1, .read, unsubscribe⟩ ]

/-- All commands. -/
def all : List Command :=
  ⟨"DEBUG", -2, .admin, debug basic⟩ :: basic

/-- Finds a command by its name in any case. -/
def lookup? (name : String) : Option Command :=
  find? all name

/-- Runs a command. -/
def dispatch (context : Context) (arguments : List String) : Reply × Context :=
  dispatchFrom all context arguments

/-- Runs the commands of a snapshot and counts those that failed. -/
def load (commands : List (List String)) (node : Node) : Nat × Node :=
  loadFrom all commands node

end ReplicaStore.Command
