import TableSteward.Fault
import TableSteward.Http.Message
import TableSteward.Json.Writer
import TableSteward.Text.Encoding
import TableSteward.Text.Quoted
import TableSteward.Value.Parts

/-!
# Calls

What a client is asked to send.  `Call.request` is the request that arrives: the reference becomes a plain path
and a query, and the body becomes bytes.  What cannot be sent is a fault of the client.
-/
set_option autoImplicit false

namespace TableSteward.Text

/-! ## Percent notation

A percent sign with two digits to the base sixteen stands for a byte; everything else stands for the bytes that
encode it.  `percentDecoded` reads the bytes as text, with a replacement character for those that are none.
-/

def percentBytes : List Char → List UInt8
  | [] => []
  | '%' :: a :: b :: rest =>
      match bytesOfHex? [a, b] with
      | some bytes => bytes ++ percentBytes rest
      | none => encode "%" ++ percentBytes (a :: b :: rest)
  | c :: rest => encode (String.singleton c) ++ percentBytes rest

def percentDecoded (cs : List Char) : List Char := decodeLossy (percentBytes cs)

end TableSteward.Text

namespace TableSteward.Http

inductive Payload
  | empty
  | text (s : String)
  | document (v : Value)

structure Call where
  method : String
  reference : String
  query : List (String × String) := []
  user : Option String := none
  payload : Payload := .empty
  client : Value := .null
  patience : Nat := 0

/-! ## References -/

namespace Reference

def maxLength : Nat := 65536

def isControl (c : Char) : Bool := c.toNat < 0x20 || c.toNat == 0x7F

def isSendable (cs : List Char) : Bool := cs.length ≤ maxLength && !cs.any isControl

/-- The path and the query of a reference.  What follows a number sign stays with the client. -/
def parts (cs : List Char) : List Char × List Char :=
  let cs := cs.takeWhile (· != '#')
  (cs.takeWhile (· != '?'), (cs.dropWhile (· != '?')).drop 1)

/-- A path without the name of a host between two slashes at its front and the next one. -/
def withoutHost : List Char → List Char
  | '/' :: '/' :: rest => rest.dropWhile (· != '/')
  | cs => cs

def walk (behind : List (List Char)) : List (List Char) → List (List Char)
  | [] => behind
  | ['.'] :: rest => walk behind rest
  | ['.', '.'] :: rest =>
      match behind with
      | [] | [[]] => walk behind rest
      | _ :: before => walk before rest
  | segment :: rest => walk (segment :: behind) rest

def absolute (cs : List Char) : List Char :=
  let segments := Text.splitOn '/' ('/' :: (withoutHost cs).dropWhile (· == '/'))
  match ['/'].intercalate (walk [] segments).reverse with
  | [] => ['/']
  | path => path

/-- The path that a reference names.  Percent notation is resolved on the way and once more on arrival. -/
def path (cs : List Char) : String :=
  String.ofList (Text.percentDecoded (Text.percentDecoded (absolute (parts cs).1)))

def queryText (cs : List Char) : String :=
  String.ofList (Text.percentDecoded (cs.map fun c => if c == '+' then ' ' else c))

def query (cs : List Char) : List (String × String) :=
  ((Text.splitOn '&' (parts cs).2).filter (!·.isEmpty)).map fun piece =>
    (queryText (piece.takeWhile (· != '=')), queryText ((piece.dropWhile (· != '=')).drop 1))

end Reference

/-! ## Bodies -/

/-- The bytes of a text; half of a surrogate pair has none. -/
def bytesOfText (s : String) : Result (List UInt8) :=
  if Text.hasHalf s then .error .notEncodableText else .ok (Text.encode s)

def Payload.bytes : Payload → Result (List UInt8)
  | empty => .ok []
  | text s => bytesOfText s
  | document v =>
      match Json.compact v with
      | none => .error .notEncodable
      | some s =>
          if v.hasNonFinite then .error .unreadableNumber
          else if v.hasHalf then .error .notEncodableText
          else .ok (Text.encode s)

def sentUser : Option String → Result (Option String)
  | none => .ok none
  | some s => if s.toList.all (·.toNat < 0x80) then .ok (some s) else .error .notEncodableText

def Call.request (c : Call) : Result Request := do
  let cs := c.reference.toList
  if !Reference.isSendable cs then throw .badReference
  if Text.hasHalf c.reference || c.query.any (fun (name, s) => Text.hasHalf name || Text.hasHalf s) then
    throw .notEncodableText
  let user ← sentUser c.user
  let body ← c.payload.bytes
  return {
    method := c.method, path := Reference.path cs,
    query := if c.query.isEmpty then Reference.query cs else c.query,
    user := user, body := body, client := c.client, patience := c.patience }

end TableSteward.Http
