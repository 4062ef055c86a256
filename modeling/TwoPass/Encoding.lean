import TwoPass.LabelTable
import TwoPass.Literal
import TwoPass.Settings
import TwoPass.Warning

/-!
# Encoding

The word that a statement stores, and the warnings that come with it.
-/

namespace TwoPass.SourceStatement

/-- A warning about a statement. -/
def warning (s : SourceStatement) (r : Remark) : Warning :=
  ⟨r, s.origin.location⟩

/-- The address that a memory reference refers to. Without an operand or with an unknown label
it is 0, unless labels are strict. -/
def referredAddress (settings : Settings) (labels : LabelTable) (s : SourceStatement) :
    Except Diagnostic (Int × List Warning) :=
  match s.operand with
  | none =>
    if settings.strictLabels then .error (s.problem (.addressMissing s.op))
    else .ok (0, [s.warning (.operandMissing s.op)])
  | some label =>
    match labels.value? label with
    | some address =>
      .ok (address, if addressMax < address then [s.warning (.truncated label address)] else [])
    | none =>
      if settings.strictLabels then
        .error (s.problem (.undefinedLabel label (Similarity.closest 3 label labels.labels) none))
      else .ok (0, [s.warning (.undefinedLabel label)])

/-- The warning that a statement has an operand that its operation does not take. -/
def ignoredOperand (s : SourceStatement) : List Warning :=
  match s.operand with
  | none => []
  | some operand => [s.warning (.operandIgnored s.op operand)]

/-- The word of a statement. An address keeps its low bits; directives that store nothing have
no word. -/
def encode (settings : Settings) (labels : LabelTable) (s : SourceStatement) :
    Except Fault (Word × List Warning) :=
  match s.op with
  | .memory op =>
    match s.referredAddress settings labels with
    | .ok (address, warnings) => .ok (op.word s.indirect (BitVec.ofInt 12 address), warnings)
    | .error d => .error (.diagnostic d)
  | .register op => .ok (op.word, s.ignoredOperand)
  | .device op => .ok (op.word, s.ignoredOperand)
  | .directive .decimal =>
    match s.decimalOperand with
    | .ok value => .ok (Word.ofInt value, [])
    | .error f => .error f
  | .directive .hexadecimal =>
    match s.hexOperand with
    | .ok value => .ok (Word.ofInt value, [])
    | .error d => .error (.diagnostic d)
  | .directive .origin => .error (.diagnostic (s.problem (.emitsNothing s.op)))
  | .directive .finish => .error (.diagnostic (s.problem (.emitsNothing s.op)))

end TwoPass.SourceStatement
