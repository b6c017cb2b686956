import BorderProxy.Text

/-! Header values that are lists. Commas separate the items, except those inside quotes or angle
brackets; items are trimmed and empty ones left out. -/

namespace BorderProxy.CommaList

/-- Where a reader stands: inside quotes, inside angle brackets, or both when a quote opens within
brackets. -/
structure Position where
  quoted : Bool := false
  bracketed : Bool := false
  deriving DecidableEq, Repr

def Position.after (p : Position) (c : Char) : Position :=
  if c = '"' then { p with quoted := !p.quoted }
  else if p.quoted then p
  else if c = '<' then { p with bracketed := true }
  else if c = '>' then { p with bracketed := false }
  else p

/-- Whether a comma separates items at this position. -/
def Position.isOpen (p : Position) : Bool := !p.quoted && !p.bracketed

/-- The pieces between separating commas; there is always at least one piece. -/
def pieces (p : Position) : Text → List Text
  | [] => [[]]
  | c :: cs =>
    if c = ',' && p.isOpen then [] :: pieces p cs
    else
      match pieces (p.after c) cs with
      | [] => [[c]]
      | piece :: more => (c :: piece) :: more

def items (value : Text) : List Text := ((pieces {} value).map Text.trim).filter (· != [])

end BorderProxy.CommaList
