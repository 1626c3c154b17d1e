import Blockwork.Datum
import Blockwork.Kinds
import Blockwork.Limits
import Blockwork.Text.Case

/-!
# Text operations

Operands and results that are too long are cut off, never refused.
-/

namespace Blockwork.TextOp

/-- The result before the length limit. -/
def compute (op : TextOp) (input argument replacement : String) : Datum :=
  match op with
  | .concat => .text (input ++ argument)
  | .replace =>
    .text (if argument.isEmpty then input else Text.replace input argument replacement)
  | .uppercase => .text (Text.upper input)
  | .lowercase => .text (Text.lower input)
  | .trim => .text (Text.trim input)
  | .length => .number (Binary.ofNat input.length)
  | .splitJoin =>
    .text (if argument.isEmpty then input
      else Text.join replacement ((Text.splitOn input argument).map Text.trim))
  | .contains => .boolean (Text.contains input argument)
  | .startsWith => .boolean (Text.startsWith input argument)
  | .endsWith => .boolean (Text.endsWith input argument)

/-- The result of an operation. -/
def apply (op : TextOp) (input argument replacement : String) (limits : Limits) : Datum :=
  let input := Text.truncate limits.textInput input
  let argument := Text.truncate limits.textArgument argument
  let replacement := Text.truncate limits.textArgument replacement
  match op.compute input argument replacement with
  | .text s => .text (Text.truncate limits.textOutput s)
  | d => d

end Blockwork.TextOp
