import Mender.Json.Basic

/-! Fixes: proposals to put a text in place of one line of a file. -/

namespace Mender

/-- The text `fixed` for line `line` of `file`, counted from one. It may span several lines. What the
line is said to hold `before` is not compared with anything. -/
structure Fix where
  file : String
  line : Number
  before : String
  fixed : String
  deriving DecidableEq

namespace Fix

def toJson (f : Fix) : Json :=
  .object
    [("file", .text f.file), ("line", .number f.line), ("original", .text f.before),
      ("fixed", .text f.fixed)]

end Fix
end Mender
