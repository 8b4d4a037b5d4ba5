import Cios.Http.Handler

/-!
# HTTP — model packs and site layouts

The handlers of `/v1/model-packs` and `/v1/site-layouts` (`core/modelpacks_http.go`,
`core/sitelayout_http.go`, `core/sitelayout.go`).  Packs and layouts are files; the store is reached
only by the writeback of a layout, which creates and updates the assets it places.  All of it is
behind the admin gate.
-/

namespace Cios.Http.Core
open Text
open Cios.Store

variable {V : Type} (env : Env V) (r : Request) (c : Ctx)

/-- One segment of a file's path, empty when it could leave its directory. -/
def sanitizeSeg (s : Bytes) : Bytes :=
  let s := trimSpace s
  if s = [] || contains ".." s || contains "/" s || contains "\\" s then [] else s

/-! ### Model packs -/

def trimSlashes (s : Bytes) : Bytes :=
  ((s.dropWhile (· = ('/' : UInt8))).reverse.dropWhile (· = ('/' : UInt8))).reverse

def splitTypeModel (rest : Bytes) : Option (Bytes × Bytes) :=
  match split '/' (trimSlashes rest) with
  | [typ, model] =>
    if sanitizeSeg typ = [] ∨ sanitizeSeg model = [] then none
    else some (sanitizeSeg typ, sanitizeSeg model)
  | _ => none

variable (typ model : Bytes)

/-- The refusal of a failed operation on a pack. -/
def packRefused (other : Bytes → Handler V) (e : Bytes) : Handler V :=
  if contains "not found" e then notFound "pack not found" (typ ++ lit "/" ++ model) else other e

def serveModelPackImport : Handler V :=
  requireOrgAdmin c fun _ => orElse (env.importForm r) refuse fun form =>
    let typ := trimSpace form.type
    let model := trimSpace form.model
    let force := form.force = "1" || env.letters.equalFold form.force "true"
    let name := if form.filename = [] then lit "pack.usda" else form.filename
    outside (.importUSDPack typ model name form.data force) fun res =>
      match res with
      | .ok doc => respond 201 (.doc doc)
      | .error .exists => problem 409 "conflict" "pack exists"
          (typ ++ lit "/" ++ model ++ lit " (pass force=1 to overwrite)")
      | .error (.validation text lint) => respond 422 (.importRefused text lint)
      | .error (.failed text) => badRequest "import failed" text

def serveModelPacks : Handler V :=
  match r.method with
  | .get => requireOrgAdmin c fun _ => outside .listModelPacks fun res =>
    orElse res (fun _ => internalProblem 500 "bad-request" "list packs") fun items =>
      respond 200 (.modelPacks items)
  | .post => serveModelPackImport env r c
  | _ => methodNotAllowed

def serveModelPackBindings : Handler V :=
  requireOrgAdmin c fun p =>
    match r.method with
    | .get => outside (.getModelPackDetail typ model) fun res =>
      orElse res (packRefused typ model fun _ =>
        internalProblem 500 "bad-request" "store error") fun d => respond 200 (.doc d.bindings)
    | .put | .post => decodeBody (2 ^ 20) env.putBindings r fun req =>
      outside (.saveBindings typ model p.subject req.notes req.bindings) fun res =>
        orElse res (packRefused typ model (badRequest "save bindings")) fun doc =>
          respond 200 (.doc doc)
    | _ => methodNotAllowed

/-- A verb on a pack: the pack's name, then the method, then the admin gate. -/
def packVerb (rest name : Bytes) (method : Method)
    (k : Bytes → Bytes → Rbac.Principal → Handler V) :
    Handler V :=
  withSome (splitTypeModel name) (badRequest "bad pack path" rest) fun (typ, model) =>
    if r.method ≠ method then methodNotAllowed
    else requireOrgAdmin c (k typ model)

def exportPack : Handler V :=
  outside (.readModelPack typ model) fun res =>
    withSome res (notFound "pack not found" (typ ++ lit "/" ++ model)) fun opened =>
      orElse opened (fun _ => internalProblem 500 "bad-request" "open pack") fun data =>
        respond 200 (.file data)

def lintPack : Handler V :=
  outside (.runModelPackLint typ model) fun res =>
    orElse res (packRefused typ model fun _ =>
      internalProblem 500 "bad-request" "lint error") fun rep => respond 200 (.doc rep)

/-- The body of `:conform`, an unreadable one counting as empty. -/
def conformPack (typ model actor : Bytes) : Handler V :=
  let body := match r.body with
    | .ok b => b.take (2 ^ 16)
    | .error _ => []
  let run := fun (req : ConformRequest) =>
    if req.mode ≠ [] ∧ !env.letters.equalFold req.mode "g8" then
      badRequest "unsupported conform mode" req.mode
    else
      let asked := r.queryGet "dry_run"
      let dryRun := req.dryRun || asked = "1" || asked = "true"
      outside (.runG8Conform typ model actor dryRun req.mappings) fun res =>
        orElse res (packRefused typ model (badRequest "conform failed")) fun rep =>
          respond 200 (.doc rep)
  if body = [] then run ⟨false, [], []⟩ else orElse (env.conform body) (badRequest "bad json") run

def packDetail : Handler V :=
  outside (.getModelPackDetail typ model) fun res =>
    orElse res (packRefused typ model fun _ =>
      internalProblem 500 "bad-request" "store error") fun d => respond 200 (.modelPack d)

/-- What a path below `/v1/model-packs/` names. -/
inductive PackPath where
  | bindings (name : Bytes)
  | importing
  | exporting (name : Bytes)
  | lint (name : Bytes)
  | conform (name : Bytes)
  | vocab
  | detail

def packPath (rest : Bytes) : PackPath :=
  match cutSuffix "/bindings" rest with
  | some name => .bindings ((cutSuffix "/" name).getD name)
  | none =>
    if rest = "import" ∨ rest = ":import" ∨ rest = "import/" then .importing
    else match cutSuffix ":export" rest with
      | some name => .exporting name
      | none => match cutSuffix ":lint" rest with
        | some name => .lint name
        | none => match cutSuffix ":conform" rest with
          | some name => .conform name
          | none => if rest = "vocab" ∨ rest = "vocab/" then .vocab else .detail

def serveModelPack : Handler V :=
  let rest := below "/v1/model-packs/" r
  if rest = [] ∨ rest = r.path then notFound "not found" []
  else match packPath rest with
    | .bindings name => withSome (splitTypeModel name) (badRequest "bad pack path" rest)
        fun (typ, model) => serveModelPackBindings env r c typ model
    | .importing =>
      if r.method ≠ .post then methodNotAllowed else serveModelPackImport env r c
    | .exporting name => packVerb r c rest name .get fun typ model _ => exportPack typ model
    | .lint name => packVerb r c rest name .post fun typ model _ => lintPack typ model
    | .conform name => packVerb r c rest name .post fun typ model p =>
      conformPack env r typ model p.subject
    | .vocab =>
      if r.method ≠ .get then methodNotAllowed
      else requireOrgAdmin c fun _ => respond 200 (.vocab env.typeVocab)
    | .detail => packVerb r c rest rest .get fun typ model _ => packDetail typ model

/-! ### Site layouts -/

/-- The spec of a placed asset: what it had, with the layout's own keys replaced. -/
def layoutSpec (lay : SiteLayout V) (inst : LayoutInstance V) (existing : Option (Asset V)) :
    Spec V :=
  let base : Spec V := match existing.bind Asset.spec with
    | some fields => some fields
    | none => some [("type", .str inst.type), ("lifecycle", .str "planned"),
        ("source", .str "site-draw")]
  let typed := match base.get "type" with
    | none | some (.str []) => base.set "type" (.str inst.type)
    | some _ => base
  let placed := typed.set "layout" (.obj [("x", .num inst.x), ("y", .num inst.y),
    ("rot", .num inst.rot)])
  let modelled := if inst.model = [] then placed else placed.set "model" (.str inst.model)
  let packed := if inst.packType = [] then modelled
    else modelled.set "pack_type" (.str inst.packType)
  let sourced := if existing.isSome then packed
    else
      let drawn := packed.set "source" (.str "site-draw")
      if (drawn.get "lifecycle").isSome then drawn
      else drawn.set "lifecycle" (.str "planned")
  let outs := (lay.edges.filter fun e => e.fromID = inst.id).filterMap fun e =>
    match lay.instances.find? fun o => o.id = e.toID with
    | none => none
    | some o => if o.path = [] then none
        else some (Json.obj [("to", .str o.path), ("relation", .str e.relation)])
  if outs.isEmpty then sourced.erase "layout_edges" else sourced.set "layout_edges" (.arr outs)

/-- The loop of the writeback over the placed instances. -/
def writebackInstances (lay : SiteLayout V) (k : LayoutWritebackResult → Handler V) :
    List (LayoutInstance V) → LayoutWritebackResult → Handler V
  | [], res => k res
  | inst :: rest, res =>
    let failed := fun (text : Bytes) =>
      { res with errors := res.errors ++ [inst.path ++ lit ": " ++ text] }
    if inst.path = lay.site ∨ !contains "." inst.path then
      writebackInstances lay k rest
        (failed "path must be site.<type><index> (not site-only)")
    else work (.getAsset inst.path) fun found =>
      match found with
      | .error e => writebackInstances lay k rest (failed e.text)
      | .ok existing =>
        work (.putAsset ⟨inst.path, 0, layoutSpec lay inst existing, 0, 0⟩ 0) fun (_, err) =>
          match err with
          | some e => writebackInstances lay k rest (failed e.text)
          | none => writebackInstances lay k rest
              (if existing.isSome then { res with assetsUpdated := res.assetsUpdated + 1 }
                else { res with assetsCreated := res.assetsCreated + 1 })

/-- `WritebackSiteLayout`; its error is the handler's "writeback failed". -/
def writebackSiteLayout (lay : SiteLayout V) (actor : Bytes)
    (k : SiteLayout V → LayoutWritebackResult → Handler V) : Handler V :=
  outside .now fun now => orElse (env.layoutOk lay) (badRequest "writeback failed") fun lay =>
    writebackInstances lay (fun res =>
      let res := { res with edgesKept := lay.edges.length }
      outside (.saveSiteLayout { lay with lastWriteback := some res } actor) fun saved =>
        orElse saved (badRequest "writeback failed") fun saved => k saved res)
      lay.instances ⟨now, actor, 0, 0, 0, []⟩

/-- The layout to write back: the one in the body, saved first, or the one on file. -/
def withOverride (site actor : Bytes) (lay : SiteLayout V) (k : SiteLayout V → Handler V) :
    Handler V :=
  let body := match r.body with
    | .ok b => b.take (2 ^ 20)
    | .error _ => []
  if body = [] then k lay
  else orElse (env.siteLayout body) (badRequest "bad writeback body") fun override =>
    outside (.saveSiteLayout { override with site := site } actor) fun saved =>
      orElse saved (badRequest "save layout override") k

def serveSiteLayoutWriteback (site : Bytes) : Handler V :=
  requireOrgAdmin c fun p =>
    let site := sanitizeSeg site
    outside (.loadSiteLayout site) fun loaded =>
      orElse loaded (badRequest "load layout") fun lay =>
        withOverride env r site p.subject lay fun lay =>
          writebackSiteLayout env lay p.subject fun saved res =>
            let q := env.letters.toLower (trimSpace (r.queryGet "rebuild_scene"))
            if q = "1" ∨ q = "true" ∨ q = "yes" then
              outside (.kickSceneRebuild site) fun job =>
                respond 200 (.writeback saved res (some job))
            else respond 200 (.writeback saved res none)

def serveSiteLayoutRebuildScene (site : Bytes) : Handler V :=
  requireOrgAdmin c fun _ => outside (.kickSceneRebuild (sanitizeSeg site)) fun job =>
    orElse job (badRequest "rebuild-scene") fun job => respond 202 (.doc job)

def serveSiteLayoutSceneJob (site : Bytes) : Handler V :=
  requireOrgAdmin c fun _ => outside (.loadSceneJob (sanitizeSeg site)) fun job =>
    orElse job (badRequest "scene-job") fun job => respond 200 (.doc job)

def serveSiteLayoutsRoot : Handler V :=
  if r.method ≠ .get then methodNotAllowed
  else requireOrgAdmin c fun _ => outside .listSiteLayoutSites fun res =>
    orElse res (fun _ => internalProblem 500 "bad-request" "list layouts") fun sites =>
      respond 200 (.siteLayouts sites env.relationNames)

def serveSiteLayout : Handler V :=
  let rest := below "/v1/site-layouts/" r
  if rest = [] then badRequest "missing site" []
  else match cutSuffix ":writeback" rest with
    | some site =>
      if r.method ≠ .post then methodNotAllowed else serveSiteLayoutWriteback env r c site
    | none => match cutSuffix ":rebuild-scene" rest with
      | some site =>
        if r.method ≠ .post then methodNotAllowed else serveSiteLayoutRebuildScene c site
      | none => match cutSuffix "/scene-job" rest with
        | some site =>
          if r.method ≠ .get then methodNotAllowed
          else serveSiteLayoutSceneJob c ((cutSuffix "/" site).getD site)
        | none =>
          let site := sanitizeSeg rest
          if site = [] then badRequest "bad site" rest
          else match r.method with
            | .get => requireOrgAdmin c fun _ => outside (.loadSiteLayout site) fun res =>
              orElse res (badRequest "load layout") fun lay => respond 200 (.siteLayout lay)
            | .put => requireOrgAdmin c fun p =>
              decodeBody (2 ^ 20) env.siteLayout r fun lay =>
                outside (.saveSiteLayout { lay with site := site } p.subject) fun saved =>
                  orElse saved (badRequest "save layout") fun saved =>
                    respond 200 (.siteLayout saved)
            | _ => methodNotAllowed

/-! ### What only reads -/

section ReadOnly

variable {env r c}

@[simp] theorem serveModelPacks_readOnly (h : NonAdmin c) : ReadOnly (serveModelPacks env r c) := by
  unfold serveModelPacks
  split
  iterate 2 exact readOnly_requireOrgAdmin h
  · exact .answer

theorem readOnly_packVerb {rest name : Bytes} {method : Method}
    {k : Bytes → Bytes → Rbac.Principal → Handler V} (h : NonAdmin c) :
    ReadOnly (packVerb r c rest name method k) :=
  .withSome .answer fun _ => .check <|
    readOnly_requireOrgAdmin h

@[simp] theorem serveModelPack_readOnly (h : NonAdmin c) : ReadOnly (serveModelPack env r c) := by
  refine .check ?_
  cases packPath (below "/v1/model-packs/" r) with
  | bindings => exact .withSome .answer fun _ => readOnly_requireOrgAdmin h
  | importing | vocab =>
    exact .check <| readOnly_requireOrgAdmin h
  | exporting | lint | conform | detail => exact readOnly_packVerb h

@[simp] theorem serveSiteLayoutsRoot_readOnly (h : NonAdmin c) :
    ReadOnly (serveSiteLayoutsRoot env r c) :=
  .check <| readOnly_requireOrgAdmin h

@[simp] theorem serveSiteLayout_readOnly (h : NonAdmin c) : ReadOnly (serveSiteLayout env r c) := by
  have hgate : ∀ {k : Rbac.Principal → Handler V} {m : Method},
      ReadOnly (if r.method ≠ m then methodNotAllowed else requireOrgAdmin c k) := fun {_ _} =>
    .check <| readOnly_requireOrgAdmin h
  refine .check ?_
  iterate 3
    split
    · exact hgate
  refine .check ?_
  split
  iterate 2 exact readOnly_requireOrgAdmin h
  · exact .answer

end ReadOnly

end Cios.Http.Core
