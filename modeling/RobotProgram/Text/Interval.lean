/-!
# Intervals in words

An interval is a whole number of milliseconds. It is shown in the largest unit that has a whole part,
with no more places than it needs.

## Main definitions

* `Text.interval`: the text of an interval.
-/

namespace RobotProgram.Text

/-- The text of a number of milliseconds, such as `20ms`, `1.5s` or `60s`. -/
def interval (ms : Nat) : String :=
  let places := ((toString (1000 + ms % 1000)).toList.drop 1).reverse.dropWhile (· = '0')
  if ms = 0 then "0ns"
  else if ms < 1000 then toString ms ++ "ms"
  else if places = [] then toString (ms / 1000) ++ "s"
  else toString (ms / 1000) ++ "." ++ String.ofList places.reverse ++ "s"

end RobotProgram.Text
