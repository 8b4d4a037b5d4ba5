import Cios.Http.Handler

/-!
# HTTP — assets and alarms

The handlers of `/v1/assets` and `/v1/alarms` (`core/assets.go`, `core/alarms.go`).  An asset is
put, deleted or moved along its lifecycle by the method and the suffix of the path, an alarm is
acknowledged by the suffix `:ack`; everything else on these paths reads.
-/

namespace Cios.Http.Core
open Text
open Cios.Store

variable {V : Type} (env : Env V) (r : Request) (c : Ctx)

/-! ### Assets -/

def allowedLifecycle (s : Bytes) : Bool :=
  s = "planned" || s = "installed" || s = "active" || s = "maintenance" || s = "retired"

def defaultLifecycle : Bytes := "planned"

def allowedLifecycleTransition (source target : Bytes) : Bool :=
  if source = "planned" then target = "installed"
  else if source = "installed" then target = "active"
  else if source = "active" then target = "maintenance" || target = "retired"
  else if source = "maintenance" then target = "active" || target = "retired"
  else false

/-- The lifecycle of an asset, the default one where the spec has none. -/
def lifecycleOf (a : Asset V) : Bytes :=
  if a.spec.getStr "lifecycle" = [] then defaultLifecycle else a.spec.getStr "lifecycle"

/-- The audit row of a change; whether it could be written does not matter. -/
def appendAudit (path op detail : Bytes) (k : Handler V) : Handler V :=
  outside (.newID "au_") fun id => outside .now fun ts =>
    work (.appendAssetAudit ⟨id, ts, auditName c, path, op, detail⟩) fun _ => k

def auditPutDetail (existed : Bool) (version : Int) : Bytes :=
  if !existed then "0→1"
  else lit (toString (version - 1)) ++ lit "→" ++ lit (toString version)

def auditDeleteDetail (cascade : Bool) (n : Int) : Bytes :=
  lit "cascade=" ++ (if cascade then lit "true" else lit "false") ++ lit ",n=" ++ lit (toString n)

variable (path : Bytes)

def withAssetPath (k : Bytes → Handler V) : Handler V :=
  orElse (env.parseAssetPath path) (fun e => problem 400 "bad-path" "bad asset path" e) k

/-- The spec to store: of the leaf's type, with a lifecycle. -/
def checkSpec (leaf : Bytes) (spec : Spec V) (k : Spec V → Handler V) : Handler V :=
  let specType := spec.getStr "type"
  if specType = [] then badRequest "spec.type is required" (lit "leaf type=" ++ leaf)
  else if specType ≠ leaf then
    badRequest "spec.type does not match path leaf"
      (lit "spec.type=" ++ specType ++ lit " leaf=" ++ leaf)
  else match spec.get "lifecycle" with
    | none => k (spec.set "lifecycle" (.str defaultLifecycle))
    | some (.str lc) => if allowedLifecycle lc then k spec else badRequest "bad lifecycle" lc
    | some _ => badRequest "spec.lifecycle must be a string" []

/-- The refusal of a failed write of an asset. -/
def putRefused (out : Asset V) (e : StoreError) : Handler V :=
  if e.sentinel = some .versionConflict then
    problem 409 "conflict" "resource version conflict" out.path
  else storeError e

/-- A repeated request id is answered as it was the first time. -/
def replayDedup (key : Option Bytes) (k : Handler V) : Handler V :=
  match key with
  | none => k
  | some key => outside (.dedupLookup key) fun hit =>
    match hit with
    | some (status, a) => respond status (.asset a)
    | none => k

def putAsset : Handler V :=
  decodeOptional ⟨none, 0, []⟩ env.putAsset r fun req =>
    let key := if req.requestID = [] then none
      else some (lit "PUT " ++ path ++ lit " " ++ req.requestID)
    replayDedup key <| withAssetPath env path fun leaf => checkSpec leaf req.spec fun spec =>
      work (.getAsset path) fun found =>
        let existed := match found with
          | .ok (some _) => true
          | _ => false
        work (.putAsset ⟨path, 0, spec, 0, 0⟩ req.resourceVersion) fun (out, err) =>
          match err with
          | some e => putRefused out e
          | none =>
            let status := if existed then 200 else 201
            appendAudit c path "put" (auditPutDetail existed out.resourceVersion) <|
              match key with
              | none => respond status (.asset out)
              | some key => outside (.dedupRemember key status out) fun _ =>
                respond status (.asset out)

def getAsset : Handler V :=
  withAssetPath env path fun _ =>
    work (.getAsset path) <| onFound (notFound "asset path not found" path) fun a =>
      respond 200 (.asset a)

/-- Behind the cursor, of the type, lifecycle and prefix asked for, and in the principal's scope. -/
def listed (glob : Rbac.Glob) (cursor : Bytes) (a : Asset V) : Bool :=
  let wantType := r.queryGet "type"
  let wantLifecycle := r.queryGet "lifecycle"
  let wantPrefix := r.queryGet "prefix"
  !(cursor ≠ [] && le a.path cursor) &&
    (wantType = [] || (match env.parseAssetPath a.path with
      | .error _ => false
      | .ok leaf => leaf = wantType)) &&
    (wantLifecycle = [] || lifecycleOf a = wantLifecycle) &&
    (wantPrefix = [] || wantPrefix.isPrefixOf a.path) &&
    glob.matches a.path && allowed env c .read a.path

def withLimit (k : Nat → Handler V) : Handler V :=
  if r.queryGet "limit" ≠ [] then withCount r "limit" "bad limit" "limit > 1000" k
  else withPageSize r k

def listAssets : Handler V :=
  withLimit r fun size => checkParam r "order_by" "order_by must be path" (· = "path") <|
    withGlob env r fun glob => withPageToken [] env.decodePageToken r fun cursor =>
      work .listAssets <| onOk fun all =>
        checkParam r "lifecycle" "bad lifecycle" allowedLifecycle <|
          let (shown, next) := keyPage (fun a => env.encodePageToken a.path) size
            (all.filter (listed env r c glob cursor))
          respond 200 (.assets shown next)

def deleteAsset : Handler V :=
  withAssetPath env path fun _ =>
    let cascade := r.queryGet "cascade" = "true"
    work (.deleteAsset path cascade) fun (n, err) =>
      match err with
      | some e =>
        if e.sentinel = some .hasChildren then
          problem 409 "conflict" "asset has children"
            (lit "asset has " ++ lit (toString n) ++ lit " children; use ?cascade=true")
        else storeError e
      | none =>
        if n = 0 then notFound "asset path not found" path
        else appendAudit c path "delete" (auditDeleteDetail cascade n) <|
          respond 200 (.deletedAssets n)

def serveAssetLifecycle : Handler V :=
  withAssetPath env path fun _ => decodeOptional [] env.lifecycleTo r fun target =>
    if !allowedLifecycle target then
      problem 422 "invalid-transition" "invalid lifecycle value" target
    else work (.getAsset path) <| onFound (notFound "asset path not found" path) fun a =>
      let cur := lifecycleOf a
      if !allowedLifecycleTransition cur target then
        problem 422 "invalid-transition" "illegal lifecycle transition"
          (cur ++ lit "->" ++ target)
      else
        work (.putAsset { a with spec := a.spec.set "lifecycle" (.str target) }
            a.resourceVersion) fun (out, err) =>
          match err with
          | some e => putRefused out e
          | none => appendAudit c path "lifecycle" (cur ++ lit "→" ++ target) <|
              respond 200 (.asset out)

def serveAssetHistory : Handler V :=
  withAssetPath env path fun _ => work (.listAssetAudits path) <| onOk fun entries =>
    inScope env c .read path <| respond 200 (.assetAudits entries)

def serveAssetsRoot : Handler V :=
  if r.method = .get then listAssets env r c else methodNotAllowed

def serveAssetPath : Handler V :=
  let path := below "/v1/assets/" r
  if path = [] ∨ contains "/" path then problem 400 "bad-path" "bad asset path" path
  else match r.method with
    | .get =>
      match cutSuffix ":history" path with
      | some asset => serveAssetHistory env c asset
      | none => getAsset env path
    | .post =>
      match cutSuffix ":lifecycle" path with
      | some asset => serveAssetLifecycle env r c asset
      | none => problem 405 "bad-request" "method not allowed" path
    | .put => putAsset env r c path
    | .delete => deleteAsset env r c path
    | .other _ => problem 405 "bad-request" "method not allowed" path

/-! ### Alarms -/

def allowedAlarmState (s : Bytes) : Bool := s = "firing" || s = "acked" || s = "resolved"

def serveAlarms : Handler V :=
  if r.method ≠ .get then methodNotAllowed
  else checkParam r "severity" "bad severity" allowedSeverity <|
    checkParam r "state" "bad state" allowedAlarmState <|
    withGlob env r fun glob => withPageSize r fun size =>
      withPageToken [] env.decodePageToken r fun cursor =>
        work .listAlarms <| onOkInternal fun all =>
          let severity := r.queryGet "severity"
          let state := r.queryGet "state"
          indexPage env cursor size
            (all.filter fun a => (severity = [] || a.severity = severity) &&
              (state = [] || a.state = state) && glob.matches a.path &&
              allowed env c .read a.path)
            fun shown next => respond 200 (.alarms shown next)

def serveAlarmAck : Handler V :=
  let rest := below "/v1/alarms/" r
  match cutSuffix ":ack" rest with
  | none => notFound "alarm sub-resource not found" rest
  | some id =>
    if id = [] then badRequest "missing id" []
    else if r.method ≠ .post then methodNotAllowed
    else if subject c = [] then
      problem 401 "unauthorized" "Unauthorized" "alarm ack requires an authenticated principal"
    else work .listAlarms <| onOkInternal fun alarms =>
      withSome (alarms.find? fun a => a.id = id) (notFound "alarm not found" id) fun cur =>
        checkScope env c .controlWrite cur.path <|
          work (.ackAlarm id (subject c)) fun ((out, found), err) =>
            match err with
            | some e =>
              if e.sentinel = some .alarmNotAckable then
                problem 409 "conflict" "alarm already acknowledged or resolved" out.state
              else internalProblem 500 "bad-request" "store error"
            | none => if !found then notFound "alarm not found" id
                else respond 200 (.alarm out)

/-! ### What only reads -/

section ReadOnly

variable {env r c}

theorem ReadOnly.withAssetPath {path : Bytes} {k : Bytes → Handler V}
    (hk : ∀ leaf, ReadOnly (k leaf)) : ReadOnly (Core.withAssetPath env path k) :=
  .orElse (fun _ => .answer) hk

theorem ReadOnly.withLimit {k : Nat → Handler V} (hk : ∀ n, ReadOnly (k n)) :
    ReadOnly (Core.withLimit r k) :=
  .ite (fun _ => .withSome .answer fun _ => .check <| .check <| hk _) fun _ => .withPageSize hk

theorem getAsset_readOnly {path : Bytes} : ReadOnly (getAsset env path) :=
  .withAssetPath fun _ => .work rfl fun _ => .onFound .answer fun _ =>
    .answer

theorem serveAssetHistory_readOnly {path : Bytes} : ReadOnly (serveAssetHistory env c path) :=
  .withAssetPath fun _ => .work rfl fun _ => .onOk fun _ => .inScope .answer

@[simp] theorem serveAssetsRoot_readOnly : ReadOnly (serveAssetsRoot env r c) := by
  refine .ite (fun _ => ?_) fun _ => .answer
  refine .withLimit fun _ => .checkParam <| .withGlob fun _ => .withPageToken fun _ => ?_
  exact .work rfl fun _ => .onOk fun _ => .checkParam .answer

theorem serveAssetPath_readOnly (hput : r.method ≠ .put) (hdelete : r.method ≠ .delete)
    (hpost : r.method = .post → cutSuffix ":lifecycle" (below "/v1/assets/" r) = none) :
    ReadOnly (serveAssetPath env r c) := by
  refine .check ?_
  split
  · split
    · exact serveAssetHistory_readOnly
    · exact getAsset_readOnly
  · rename_i hm
    rw [hpost hm]
    exact .answer
  · exact absurd ‹_› hput
  · exact absurd ‹_› hdelete
  · exact .answer

@[simp] theorem serveAlarms_readOnly : ReadOnly (serveAlarms env r c) := by
  refine .check <| .checkParam <| .checkParam ?_
  refine .withGlob fun _ => .withPageSize fun _ => .withPageToken fun _ => ?_
  exact .work rfl fun _ => .onOkInternal fun _ => .indexPage fun _ _ => .answer

theorem serveAlarmAck_readOnly (h : cutSuffix ":ack" (below "/v1/alarms/" r) = none) :
    ReadOnly (serveAlarmAck env r c) := by
  rw [serveAlarmAck, h]
  exact .answer

end ReadOnly

end Cios.Http.Core
