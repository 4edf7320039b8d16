import Casework.Decimal.Layout

/-!
# Metrics

What executions and their hosts report about themselves.

* `Metric` : counters, durations of a part of an execution, durations of an operation;
* `Metric.tagText`, `Metric.valueText` : how tags and values are written.

How long something took is not kept.
-/

namespace Casework

inductive Metric where
  /-- An amount, with tags. -/
  | counter (name : String) (value : Binary64) (tags : List (String × String))
  /-- A duration, with tags. -/
  | duration (name : String) (tags : List (String × String))
  /-- The duration of an operation. -/
  | span (operation : String)
deriving DecidableEq, Repr

namespace Metric

/-- Tags as `key=value`, separated by commas. -/
def tagText (tags : List (String × String)) : String :=
  String.intercalate "," (tags.map fun t => t.1 ++ "=" ++ t.2)

/-- A value in positional notation, without a fraction if it is whole. -/
def valueText (x : Binary64) : String :=
  NumberLayout.plain.render x

def one (name : String) (tags : List (String × String)) : Metric :=
  .counter name (Binary64.ofInt 1) tags

end Metric
end Casework
