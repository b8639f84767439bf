import FilterChain.Log.Channel
import FilterChain.Wire

/-!
# Event streams

Log entries as server-sent events: one frame per entry, a data line with the JSON text of the entry
and an empty line. A gap in what a subscriber receives leaves no frame.
-/

namespace FilterChain.Log

namespace Entry

/-- The frame of an entry, in front of `rest`. -/
def frame (entry : Entry) (rest : List Char) : List Char :=
  "data: ".toList ++ entry.toValue.render ('\n' :: '\n' :: rest)

end Entry

def eventStream : List Entry → List Char
  | [] => []
  | entry :: entries => entry.frame (eventStream entries)

def Delivery.entries : List Delivery → List Entry
  | [] => []
  | .entry e :: ds => e :: entries ds
  | .lagged _ :: ds => entries ds

def streamText (deliveries : List Delivery) : String :=
  String.ofList (eventStream (Delivery.entries deliveries))

end FilterChain.Log
