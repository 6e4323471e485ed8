import ParcelDesk.Request

namespace ParcelDesk

/-- What is left of an error without the details: which refusal or failure it is, and in a batch
those of its members in their order. -/
inductive Variant where
  | refused (reason : Refusal)
  | batch (members : List Variant)
  | failed (source : Source)

namespace Error

mutual

def variant : Error → Variant
  | .refused reason _ => .refused reason
  | .batch members => .batch (variants members)
  | .failed source _ => .failed source

def variants : List Error → List Variant
  | [] => []
  | error :: rest => error.variant :: variants rest

end

end Error

def Server.after (serve : Server σ) (requests : List Request) (state : σ) : σ :=
  requests.foldl (fun state request => (serve request state).2) state

inductive Reply.Alike : Reply α → Reply α → Prop
  | ok (value : α) : Alike (.ok value) (.ok value)
  | fail {error other : Error} (h : error.variant = other.variant) :
      Alike (Reply.fail error) (Reply.fail other)

end ParcelDesk
