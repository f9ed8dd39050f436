import ReplicaStore.Bytes

/-!
# Values on the wire

Requests and replies are made of six kinds of value.  `Value.encode` writes one;
a command is an array of strings, which `Value.command` builds and
`Value.arguments?` takes apart.
-/

namespace ReplicaStore.Wire

/-- A request or reply, or a part of one. -/
inductive Value where
  | simple (text : String)
  | failure (text : String)
  | integer (value : Int)
  | bulk (text : String)
  | array (elements : List Value)
  | null
  deriving BEq, Repr, Inhabited

namespace Value

/-- The written form.  A bulk string carries its length in bytes, an array its
number of elements; the absent value is a bulk string of length -1. -/
def encode : Value → String
  | simple text => s!"+{text}\r\n"
  | failure text => s!"-{text}\r\n"
  | integer value => s!":{value}\r\n"
  | bulk text => s!"${text.utf8ByteSize}\r\n{text}\r\n"
  | array elements => s!"*{elements.length}\r\n" ++ encodeAll elements
  | null => "$-1\r\n"
where
  /-- The written forms of several values, one behind the other. -/
  encodeAll : List Value → String
    | [] => ""
    | first :: rest => encode first ++ encodeAll rest

/-- A command in the form in which clients and leaders send it. -/
def command (arguments : List String) : Value :=
  .array (arguments.map .bulk)

/-- The reply of a command that has nothing to report. -/
def ok : Value := .simple "OK"

/-- The argument that one element of a command stands for. -/
def argument? : Value → Option String
  | bulk text | simple text => some text
  | integer value => some (toString value)
  | _ => none

/-- The arguments of a command: only an array of strings and integers is one. -/
def arguments? : Value → Option (List String)
  | array elements => elements.mapM argument?
  | _ => none

@[simp] theorem arguments?_command (arguments : List String) :
    (command arguments).arguments? = some arguments := by
  induction arguments with
  | nil => rfl
  | cons first rest ih =>
      simp only [command, arguments?] at ih ⊢
      simp [argument?, ih]

/-- The bytes of the written form. -/
def toBytes (value : Value) : Bytes :=
  Bytes.ofText value.encode

end Value

/-- The bytes of a command in the form in which clients and leaders send it. -/
def commandBytes (arguments : List String) : Bytes :=
  (Value.command arguments).toBytes

end ReplicaStore.Wire
