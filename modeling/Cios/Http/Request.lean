import Cios.Rbac.Authorize
import Cios.Support.Letters

/-!
# HTTP — requests, replies and the request context

What the core's handlers read of a request and how they answer.  A request is its method, its
decoded path, its query parameters, the headers the core looks at, the component named by the
verified client certificate, and its body; reading the body may fail.
-/

namespace Cios.Http
open Text
open Cios.Rbac (Principal)

/-- The methods the handlers tell apart; any other is carried by name. -/
inductive Method where
  | get
  | post
  | put
  | delete
  | other (name : Bytes)
deriving DecidableEq, Repr

structure Request where
  method : Method
  path : Bytes
  query : List (Bytes × Bytes)
  authorization : Bytes
  tenantHeader : Bytes
  actorHeader : Bytes
  /-- The client certificate's component, empty without a verified certificate. -/
  peer : Bytes
  body : Except Bytes Bytes

def Request.queryGet (r : Request) (key : Bytes) : Bytes :=
  match r.query.find? fun kv => kv.1 = key with
  | some kv => kv.2
  | none => []

/-- What the middleware attaches to a request it passes on. -/
structure Ctx where
  principal : Option Principal
  tenant : Option Bytes

/-- A problem document; its instance and request id are left out. -/
structure Problem where
  status : Nat
  slug : Bytes
  title : Bytes
  detail : Bytes
deriving DecidableEq, Repr

inductive Reply (β : Type) where
  | problem (p : Problem)
  | json (status : Nat) (body : β)
  | noContent
deriving DecidableEq, Repr

def Reply.accepted {β : Type} : Reply β → Bool
  | .problem _ => false
  | .json _ _ => true
  | .noContent => true

end Cios.Http
