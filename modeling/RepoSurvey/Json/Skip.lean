import RepoSurvey.Json.Token

/-!
Passing over a value of which nothing is kept. Its brackets may nest to any depth, so the open ones
are held in a list.
-/

namespace RepoSurvey.Json

/-- An open bracket. -/
inductive Bracket where
  | list | record
  deriving Repr, DecidableEq

/-- What is said when a bracket's part is followed by neither a comma nor its closing bracket. -/
def Bracket.separatorFault : Bracket → String
  | list => "expected `,` or `]`"
  | record => "expected `,` or `\x7d`"

def Bracket.endFault : Bracket → String
  | list => "EOF while parsing a list"
  | record => "EOF while parsing an object"

def Bracket.closing : Bracket → Char
  | list => ']'
  | record => '}'

/-- The name of a field that is passed over, with its colon. -/
def skipName (cs : List Char) : Except Fault (List Char) :=
  match skipGap cs with
  | '"' :: rest => do
    match skipGap (← skipQuoted rest) with
    | ':' :: rest => .ok rest
    | [] => .error (.next "EOF while parsing an object" [])
    | rest => .error (.next "expected `:`" rest)
  | [] => .error (.next "EOF while parsing an object" [])
  | rest => .error (.next "key must be a string" rest)

/-- What comes before a part of a bracket: the name of a field, or nothing. -/
def skipToPart : Bracket → List Char → Except Fault (List Char)
  | .list, cs => .ok cs
  | .record, cs => skipName cs

/-- One step of passing over: either the head of a value stands next, or a part of the innermost of
the `open` brackets has ended. The result says whether a value stands next then. -/
def skipStep (valueNext : Bool) (brackets : List Bracket) (cs : List Char) :
    Except Fault (Bool × List Bracket × List Char) :=
  if valueNext then
    match skipGap cs with
    | [] => .error (.next "EOF while parsing a value" [])
    | 'n' :: rest => do return (false, brackets, ← readWord ['u', 'l', 'l'] rest)
    | 't' :: rest => do return (false, brackets, ← readWord ['r', 'u', 'e'] rest)
    | 'f' :: rest => do return (false, brackets, ← readWord ['a', 'l', 's', 'e'] rest)
    | '-' :: rest => do return (false, brackets, ← skipNumber rest)
    | '"' :: rest => do return (false, brackets, ← skipQuoted rest)
    | c :: rest =>
      if c.isDigit then do return (false, brackets, ← skipNumber (c :: rest))
      else if c = '[' ∨ c = '{' then
        let bracket : Bracket := if c = '[' then .list else .record
        match skipGap rest with
        | [] => .error (.next bracket.endFault [])
        | d :: rest =>
          if d = bracket.closing then .ok (false, brackets, rest)
          else do return (true, bracket :: brackets, ← skipToPart bracket (d :: rest))
      else .error (.next "expected value" (c :: rest))
  else
    match brackets with
    | [] => .ok (false, [], cs)
    | bracket :: outer =>
      match skipGap cs with
      | [] => .error (.next bracket.endFault [])
      | ',' :: rest => do return (true, brackets, ← skipToPart bracket rest)
      | c :: rest =>
        if c = bracket.closing then .ok (false, outer, rest)
        else .error (.next bracket.separatorFault (c :: rest))

/-- Passes over what is left of a value. Every step takes something off the text. -/
def skipFrom (valueNext : Bool) (brackets : List Bracket) (cs : List Char) :
    Except Fault (List Char) :=
  if !valueNext && brackets.isEmpty then .ok cs
  else
    match skipStep valueNext brackets cs with
    | .error e => .error e
    | .ok (valueNext, brackets, rest) =>
      if rest.length < cs.length then skipFrom valueNext brackets rest
      else .error (.here "expected value" rest)
termination_by cs.length

def skipValue (cs : List Char) : Except Fault (List Char) := skipFrom true [] cs

end RepoSurvey.Json
