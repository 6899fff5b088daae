import TableSteward.Value

/-!
# Values in messages

`display` is the text of a value in a message: texts as they are, everything else by `shown`, which is also
how a value appears inside a list or a dictionary, with texts in quotes.
-/
set_option autoImplicit false

namespace TableSteward

def commaList (items : List String) : String := ", ".intercalate items

namespace Value

def callText (name : String) (arguments : List String) : String :=
  name ++ "(" ++ commaList arguments ++ ")"

def dateParts (d : Date) : List String := [d.year, d.month, d.day].map toString

def timeParts (t : TimeOfDay) : List String :=
  [t.hour, t.minute].map toString ++
  (if t.micro != 0 then [t.second, t.micro].map toString
   else if t.second != 0 then [toString t.second] else [])

def durationText (d : Duration) : String :=
  let parts :=
    (if d.days != 0 then ["days=" ++ toString d.days] else []) ++
    (if d.seconds != 0 then ["seconds=" ++ toString d.seconds] else []) ++
    (if d.microseconds != 0 then ["microseconds=" ++ toString d.microseconds] else [])
  callText "datetime.timedelta" (if parts.isEmpty then ["0"] else parts)

def zoneParts : Option Int → List String
  | none => []
  | some offset =>
      if offset = 0 then ["tzinfo=datetime.timezone.utc"]
      else ["tzinfo=" ++ callText "datetime.timezone" [durationText (Duration.ofParts 0 offset 0)]]

def boolText (b : Bool) : String := if b then "True" else "False"

mutual

def shown : Value → String
  | null => "None"
  | bool b => boolText b
  | int n => toString n
  | real x => x.text
  | decimal d => callText "Decimal" [Text.quoted d.text]
  | date d => callText "datetime.date" (dateParts d)
  | timestamp t => callText "datetime.datetime" (dateParts t.date ++ timeParts t.time ++ zoneParts t.offset)
  | time t offset => callText "datetime.time" (timeParts t ++ zoneParts offset)
  | duration d => durationText d
  | uuid u => callText "UUID" [Text.quoted u]
  | bytes bs => Text.quotedBytes bs
  | memory _ => "<memory>"
  | text s => Text.quoted s
  | list items => "[" ++ commaList (shownItems items) ++ "]"
  | dict entries => "\x7b" ++ commaList (shownEntries entries) ++ "\x7d"

def shownItems : List Value → List String
  | [] => []
  | v :: rest => shown v :: shownItems rest

def shownEntries : List (String × Value) → List String
  | [] => []
  | (key, v) :: rest => (Text.quoted key ++ ": " ++ shown v) :: shownEntries rest

end

def display : Value → String
  | text s => s
  | decimal d => d.text
  | date d => d.text
  | timestamp t => t.textWith " "
  | time t offset => t.text ++ offsetSuffix offset
  | duration d => d.text
  | uuid u => u
  | v => v.shown

end Value

end TableSteward
