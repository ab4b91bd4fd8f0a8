import Unnest.Decimal.Layout
import Unnest.Text.Printable

/-!
# Scalars

A column holds scalars of one type: longs, texts or doubles.  `ScalarType.Carrier` is the type of
the scalars themselves, so that dictionaries and columns are written once for all three; a `Value`
is a scalar together with its type, as it is shown in a row.
-/

namespace Unnest

/-- The type of the scalars of a column. -/
inductive ScalarType where
  | long
  | text
  | double
deriving DecidableEq, Repr, Inhabited

/-- A scalar taken out of its column. -/
inductive Value where
  | long (value : Int64)
  | text (value : String)
  | double (value : Double)
deriving DecidableEq, Repr, Inhabited

namespace ScalarType

/-- The scalars of a type. -/
abbrev Carrier : ScalarType → Type
  | .long => Int64
  | .text => String
  | .double => Double

instance (kind : ScalarType) : Ord kind.Carrier :=
  match kind with
  | .long => inferInstanceAs (Ord Int64)
  | .text => inferInstanceAs (Ord String)
  | .double => inferInstanceAs (Ord Double)

instance (kind : ScalarType) : Std.TransOrd kind.Carrier :=
  match kind with
  | .long => inferInstanceAs (Std.TransOrd Int64)
  | .text => inferInstanceAs (Std.TransOrd String)
  | .double => inferInstanceAs (Std.TransOrd Double)

instance (kind : ScalarType) : Std.LawfulEqOrd kind.Carrier :=
  match kind with
  | .long => inferInstanceAs (Std.LawfulEqOrd Int64)
  | .text => inferInstanceAs (Std.LawfulEqOrd String)
  | .double => inferInstanceAs (Std.LawfulEqOrd Double)

instance (kind : ScalarType) : DecidableEq kind.Carrier :=
  match kind with
  | .long => inferInstanceAs (DecidableEq Int64)
  | .text => inferInstanceAs (DecidableEq String)
  | .double => inferInstanceAs (DecidableEq Double)

instance (kind : ScalarType) : Inhabited kind.Carrier :=
  match kind with
  | .long => ⟨(0 : Int64)⟩
  | .text => ⟨""⟩
  | .double => ⟨Double.zero⟩

/-- The name of a type in messages. -/
def name : ScalarType → String
  | .long => "LONG"
  | .text => "STRING"
  | .double => "DOUBLE"

/-- The scalar that stands for nothing: zero or the empty text. -/
def zero : (kind : ScalarType) → kind.Carrier
  | .long => (0 : Int64)
  | .text => ""
  | .double => Double.zero

def toValue : (kind : ScalarType) → kind.Carrier → Value
  | .long, scalar => .long scalar
  | .text, scalar => .text scalar
  | .double, scalar => .double scalar

/-- The text of a scalar in a message about a broken invariant. -/
def diagnostic : (kind : ScalarType) → kind.Carrier → String
  | .long, scalar => toString (scalar : Int64).toInt
  | .text, scalar => Text.quote scalar
  | .double, scalar => Decimal.diagnosticLayout.write scalar

end ScalarType

namespace Value

def kind : Value → ScalarType
  | .long _ => .long
  | .text _ => .text
  | .double _ => .double

/-- The plain text of a value. -/
def toText : Value → String
  | .long value => toString value.toInt
  | .text value => value
  | .double value => Decimal.plainLayout.write value

end Value

@[simp]
theorem ScalarType.kind_toValue (kind : ScalarType) (scalar : kind.Carrier) :
    (kind.toValue scalar).kind = kind := by
  cases kind <;> rfl

end Unnest
