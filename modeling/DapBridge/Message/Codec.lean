import DapBridge.Json.Read
import DapBridge.Json.Write
import DapBridge.Schema.Check
import DapBridge.Error

/-!
# Protocol messages

A protocol message is a JSON object with a sequence number `seq` and a `type`: a `request`
names a `command` and may carry `arguments`; a `response` answers the request `request_seq`
with `success`, the `command`, maybe a `message` and a `body`; an `event` names its `event`
and may carry a `body`. Fields beyond these are kept.

`Message.parse` refuses, in this order: text that is no JSON, JSON that is no object, a
missing `seq`, a missing `type`, an unknown type, and fields of the wrong kind (all of them,
listed in field order). Every refusal after the first two names the message's command when
it has a string one.

A `Codec` numbers outgoing messages: each message it builds takes the next number, one
more than the last.
-/

namespace DapBridge

namespace Message

def integer : Schema := .number [.int]

def requestSchema : Schema :=
  .object [("seq", integer), ("type", .literal "request"), ("command", .string 0),
    ("arguments", .optional .any)] .keep

def responseSchema : Schema :=
  .object [("seq", integer), ("type", .literal "response"), ("request_seq", integer),
    ("success", .boolean), ("command", .string 0), ("message", .optional (.string 0)),
    ("body", .optional .any)] .keep

def eventSchema : Schema :=
  .object [("seq", integer), ("type", .literal "event"), ("event", .string 0),
    ("body", .optional .any)] .keep

/-- The schema of a message type. -/
def schemaOf? : String → Option Schema
  | "request" => some requestSchema
  | "response" => some responseSchema
  | "event" => some eventSchema
  | _ => none

/-- Read a message from its text, checking it with the validator `V`. -/
def parse (V : Validator) (text : String) : Except AdapterError Json :=
  match Json.read text with
  | .error e => .error (.protocol s!"Invalid JSON: {e}" none)
  | .ok raw =>
    match raw with
    | .obj fs =>
      let command := (Json.Fields.get? fs "command").bind Json.getString?
      if !Json.Fields.contains fs "seq" then .error (.protocol "Message is missing 'seq'" command)
      else if !Json.Fields.contains fs "type" then .error (.protocol "Message is missing 'type'" command)
      else
        let ty := (Json.Fields.get? fs "type").getD .null
        match ty.getString?.bind fun t => (schemaOf? t).map (t, ·) with
        | none => .error (.protocol s!"Unknown message type: {ty.displayText}" command)
        | some (t, schema) =>
          match V.read schema (some raw) with
          | .ok out => .ok (out.getD raw)
          | .error issues => .error (.protocol s!"Malformed {t}: {Issue.describeAll issues}" command)
    | _ => .error (.protocol "Message must be a JSON object" none)

end Message

/-- The sequence number and command a response answers. -/
structure RequestRef where
  seq : Double
  command : Text
  deriving Inhabited

/-- Numbers outgoing messages. -/
structure Codec where
  seq : Double
  deriving Inhabited

namespace Codec

def fresh : Codec := ⟨1⟩

/-- The next number, and the codec after it. -/
def next (c : Codec) : Double × Codec := (c.seq, ⟨c.seq + 1⟩)

def request (c : Codec) (command : Text) (args : Option Json) : Json × Codec :=
  let (n, c) := c.next
  (Json.objectOpt [("seq", some (.num n)), ("type", some (.string "request")),
    ("command", some (.str command)), ("arguments", args)], c)

def response (c : Codec) (req : RequestRef) (body : Option Json) : Json × Codec :=
  let (n, c) := c.next
  (Json.objectOpt [("seq", some (.num n)), ("type", some (.string "response")),
    ("request_seq", some (.num req.seq)), ("success", some (.bool true)),
    ("command", some (.str req.command)), ("body", body)], c)

def event (c : Codec) (event : Text) (body : Option Json) : Json × Codec :=
  let (n, c) := c.next
  (Json.objectOpt [("seq", some (.num n)), ("type", some (.string "event")),
    ("event", some (.str event)), ("body", body)], c)

/-- The response for a protocol error: the body names the error and the command. -/
def errorResponse (c : Codec) (req : RequestRef) (message : String) : Json × Codec :=
  let (n, c) := c.next
  (Json.object [("seq", .num n), ("type", .string "response"), ("request_seq", .num req.seq),
    ("success", .bool false), ("command", .str req.command), ("message", .string message),
    ("body", Json.object [("error", .string "ProtocolError"),
      ("details", Json.object [("command", .str req.command)])])], c)

/-- The response for any failure; protocol errors get `errorResponse`. -/
def failureResponse (c : Codec) (req : RequestRef) (f : Fault) : Json × Codec :=
  if f.code = "ProtocolError" then errorResponse c req f.message
  else
    let (n, c) := c.next
    (Json.object [("seq", .num n), ("type", .string "response"), ("request_seq", .num req.seq),
      ("success", .bool false), ("command", .str req.command), ("message", .string f.message),
      ("body", Json.object [("error", .string f.code)])], c)

end Codec

end DapBridge
