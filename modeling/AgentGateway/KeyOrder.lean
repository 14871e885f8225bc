
namespace AgentGateway.KeyOrder

variable {β : Type}

def insert (key : String) (v : β) : List (String × β) → List (String × β)
  | [] => [(key, v)]
  | (k, w) :: rest =>
    if key < k then (key, v) :: (k, w) :: rest
    else if key = k then (key, v) :: rest
    else (k, w) :: insert key v rest

/-- Sets one key after the other; of a repeated key the last value stays. -/
def insertAll (entries : List (String × β)) (into : List (String × β)) : List (String × β) :=
  entries.foldl (fun acc e => insert e.1 e.2 acc) into

def ofList (entries : List (String × β)) : List (String × β) := insertAll entries []

end AgentGateway.KeyOrder
