/-!
# Tables of code points

A Unicode property is given as a list of ranges of code points.
-/

namespace CategoryAudit.Text

def inRanges (ranges : List (Nat × Nat)) (n : Nat) : Bool :=
  ranges.any fun r => r.1 ≤ n && n ≤ r.2

end CategoryAudit.Text
