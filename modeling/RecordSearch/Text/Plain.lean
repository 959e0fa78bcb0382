/-!
# Plain text

Messages may quote what a user typed. Control characters and the sequences that
steer a terminal are left out of them; blanks and line ends stay.
-/

namespace RecordSearch.Text

/-- What the characters so far have begun. -/
inductive Mode where
  | text
  /-- an escape character, and what may follow it before the final one -/
  | escape
  | escapeRest
  /-- a control sequence, which ends at a letter or a like sign -/
  | sequence
  /-- a command to the system, which a bell ends -/
  | command
  /-- a string for a device, which another escape ends -/
  | device
deriving DecidableEq, Repr

def isControl (c : Char) : Bool := c.toNat < 0x20 || c = '\x7f'

def isLayout (c : Char) : Bool := c = '\t' || c = '\n' || c = '\x0c' || c = '\r'

def between (low high : Char) (c : Char) : Bool := low ≤ c && c ≤ high

def Mode.step (m : Mode) (c : Char) : Mode × Bool :=
  if c = '\x1b' then (.escape, false)
  else if c = '\x18' || c = '\x1a' then (.text, false)
  else
    match m with
    | .text => (.text, !isControl c || isLayout c)
    | .command => (if c = '\x07' then .text else .command, false)
    | .device => (.device, false)
    | m =>
      if isLayout c then (.text, true)
      else
        match m with
        | .escape =>
          if c = '[' then (.sequence, false)
          else if c = ']' then (.command, false)
          else if c = 'P' || c = 'X' || c = '^' || c = '_' then (.device, false)
          else if between ' ' '/' c then (.escapeRest, false)
          else (if between '0' '~' c then .text else .escape, false)
        | .escapeRest => (if between '0' '~' c then .text else .escapeRest, false)
        | m => (if between '@' '~' c then .text else m, false)

def plainFrom (m : Mode) : List Char → List Char
  | [] => []
  | c :: rest =>
    let (next, kept) := m.step c
    if kept then c :: plainFrom next rest else plainFrom next rest

def plain (s : String) : String := String.ofList (plainFrom .text s.toList)

end RecordSearch.Text
