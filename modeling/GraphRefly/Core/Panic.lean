import Mathlib.Data.List.Infix

/-!
# Panics Of The Graph

The runtimes that call a user's function catch its panics, but for those of the graph's
own runtime, which go on unwinding. They are told apart by their messages.

## Main definitions

* `isGraphRuntimePanic`: Whether a message is one of the graph's own.
-/

namespace GraphRefly

def graphRuntimeMessages : List String :=
  ["R-reentrancy", "R-rewire", "R-graph-domain", "D22", "D37", "feedback cycle", "different graph",
    "cross-graph", "wire bridge", "mid-fn topology mutation", "reentrant dep mutation"]

def isGraphRuntimePanic (message : String) : Bool :=
  graphRuntimeMessages.any fun part => decide (part.toList <:+: message.toList)

end GraphRefly
