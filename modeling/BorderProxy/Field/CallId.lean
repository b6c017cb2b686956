import BorderProxy.Text

/-! Call-IDs as they are stored: the parts before and after the first at sign, each cut to 64
characters. -/

namespace BorderProxy

/-- The most characters kept of an identifier. -/
def identifierLimit : Nat := 64

/-- An identifier cut to the characters that are kept. -/
def cutIdentifier (t : Text) : Text := t.take identifierLimit

@[simp] theorem cutIdentifier_idem (t : Text) : cutIdentifier (cutIdentifier t) = cutIdentifier t := by
  simp [cutIdentifier, List.take_take]

structure CallId where
  number : Text
  host : Text
  deriving DecidableEq, Repr

namespace CallId

def ofText (t : Text) : CallId :=
  match Text.cut? '@' (Text.trim t) with
  | some (number, host) => ⟨cutIdentifier number, cutIdentifier host⟩
  | none => ⟨cutIdentifier (Text.trim t), []⟩

def text (c : CallId) : Text := if c.host = [] then c.number else c.number ++ '@' :: c.host

end CallId

end BorderProxy
