import Cios.Http.Request
import Cios.Store.Tenancy
import Cios.Support.Effect

/-!
# HTTP — the administration surface

The handlers of `/v1/tenants`, `/v1/orgs`, `/v1/site-orgs` and `/v1/role-bindings`
(`core/tenants_admin_http.go`, `core/tenants_http.go`, `core/orgs_http.go`, `core/siteorg_http.go`,
`core/rolebindings_http.go`), as programs over the store's tenancy methods.

JSON decoding, page tokens and Unicode case mapping are the library's (`Std`).
-/

namespace Cios.Http.Admin
open Text Effect
open Cios.Rbac (Principal)
open Cios.Store

/-! ### Bodies and records -/

structure TenantCreateRequest where
  id : Bytes
  displayName : Bytes

structure TenantTierRequest where
  isolationTier : Bytes

structure OrgCreateRequest where
  tenantID : Bytes
  name : Bytes

structure OrgRenameRequest where
  name : Bytes

structure SiteOrgAttachRequest where
  site : Bytes
  orgID : Bytes

structure RoleBindingWriteRequest where
  subject : Bytes
  scope : Bytes
  origin : Bytes

/-- The library functions.  A decoder answers the value, or the error's text. -/
structure Std where
  letters : Letters
  tenantCreate : Bytes → Except Bytes TenantCreateRequest
  tenantTier : Bytes → Except Bytes TenantTierRequest
  orgCreate : Bytes → Except Bytes OrgCreateRequest
  orgRename : Bytes → Except Bytes OrgRenameRequest
  siteOrgAttach : Bytes → Except Bytes SiteOrgAttachRequest
  roleBindingWrite : Bytes → Except Bytes RoleBindingWriteRequest
  encodePageToken : Bytes → Bytes
  decodePageToken : Bytes → Option Bytes
  encodePageTokenPair : Bytes → Bytes → Bytes
  decodePageTokenPair : Bytes → Option (Bytes × Bytes)
  /-- The clock and the fresh id that `POST /v1/role-bindings` samples. -/
  now : Int
  newRoleBindingID : Bytes

def Std.plain : Std where
  letters := .none
  tenantCreate _ := .error []
  tenantTier _ := .error []
  orgCreate _ := .error []
  orgRename _ := .error []
  siteOrgAttach _ := .error []
  roleBindingWrite _ := .error []
  encodePageToken := id
  decodePageToken := some
  encodePageTokenPair a b := a ++ b
  decodePageTokenPair _ := none
  now := 1
  newRoleBindingID := "rb_0"

structure TenantListItem where
  tenant : Tenant
  orgs : List Org
  defaultOrg : Option Org
deriving DecidableEq, Repr

/-- The bodies of the surface's successful answers. -/
inductive Body where
  | tenant (t : Tenant)
  | tenantCreated (t : Tenant) (defaultOrg : Org)
  | tenants (items : List TenantListItem) (nextPageToken : Bytes)
  | org (o : Org)
  | orgs (items : List Org) (nextPageToken : Bytes)
  | siteOrg (so : SiteOrg)
  | siteOrgs (items : List SiteOrg) (nextPageToken : Bytes)
  | roleBinding (rb : RoleBinding)
  | roleBindings (items : List RoleBinding) (nextPageToken : Bytes)
deriving DecidableEq, Repr

abbrev Handler := Prog Call Call.Ret (Reply Body)

/-! ### Shared steps -/

def problem (status : Nat) (slug title detail : Bytes) : Handler :=
  .done (.problem ⟨status, slug, title, detail⟩)

/-- `writeInternalProblem` with status 500: the store's own error is only logged. -/
def internalProblem (title : Bytes) : Handler :=
  problem 500 "bad-request" title "internal error; see request_id"

def storeError : Handler := internalProblem "store error"

def methodNotAllowed : Handler := problem 405 "bad-request" "method not allowed" []

def badRequest (title detail : Bytes) : Handler := problem 400 "bad-request" title detail

def notFound (title detail : Bytes) : Handler := problem 404 "path-not-found" title detail

def scopeMismatch (title detail : Bytes) : Handler :=
  problem 403 "tenant-scope-mismatch" title detail

/-- `requireOrgAdmin`: the rest of the handler, for an admin. -/
def requireOrgAdmin (c : Ctx) (k : Principal → Handler) : Handler :=
  match c.principal with
  | some p => if p.role = .admin then k p else problem 403 "forbidden" "forbidden" []
  | none => problem 403 "forbidden" "forbidden" []

/-- The rest of the handler on a store's answer; an error of the store is a 500. -/
def onOk {α : Type} (k : α → Handler) : Except StoreError α → Handler
  | .error _ => storeError
  | .ok a => k a

/-- The body, read up to 64 KiB. -/
def readBody (r : Request) (k : Bytes → Handler) : Handler :=
  match r.body with
  | .error e => badRequest "read body" e
  | .ok b => k (b.take (2 ^ 16))

def decodeBody {α : Type} (decode : Bytes → Except Bytes α) (r : Request) (k : α → Handler) :
    Handler :=
  readBody r fun b =>
    match decode b with
    | .error e => badRequest "bad json" e
    | .ok a => k a

def Sent {α : Type} (decode : Bytes → Except Bytes α) (r : Request) (w : α) : Prop :=
  ∃ b, r.body = .ok b ∧ decode (b.take (2 ^ 16)) = .ok w

theorem Sent.unique {α : Type} {decode : Bytes → Except Bytes α} {r : Request} {w w' : α}
    (h : Sent decode r w) (h' : Sent decode r w') : w = w' := by
  obtain ⟨b, hb, hd⟩ := h
  obtain ⟨b', hb', hd'⟩ := h'
  obtain rfl := Except.ok.inj (hb.symm.trans hb')
  exact Except.ok.inj (hd.symm.trans hd')

def maxPageSize : Nat := 1000

def parseAdminPageSize (raw : Bytes) : Option Nat :=
  if raw = [] then some maxPageSize
  else match atoi raw with
    | none => none
    | some n => if n ≤ 0 then none else some (min n.toNat maxPageSize)

def withPageSize (r : Request) (k : Nat → Handler) : Handler :=
  match parseAdminPageSize (r.queryGet "page_size") with
  | none => badRequest "bad page_size" (r.queryGet "page_size")
  | some n => k n

/-- The cursor of a page, `some none` without one; `none` when the token does not decode. -/
def pageCursor {α : Type} (decode : Bytes → Option α) (r : Request) : Option (Option α) :=
  if r.queryGet "page_token" = [] then some none else (decode (r.queryGet "page_token")).map some

def withPageToken {α : Type} (decode : Bytes → Option α) (r : Request) (k : Option α → Handler) :
    Handler :=
  match pageCursor decode r with
  | none => badRequest "bad page_token" []
  | some cursor => k cursor

/-- The rows after the cursor, up to a page, and the token of the next page. -/
def page {α : Type} (after : α → Bool) (token : α → Bytes) (size : Nat) (l : List α) :
    List α × Bytes :=
  let kept := l.filter after
  let shown := kept.take size
  (shown, if size < kept.length then (shown.getLast?.map token).getD [] else [])

/-- A key after a single-key cursor; the empty cursor is no cursor. -/
def afterKey (cursor : Option Bytes) (key : Bytes) : Bool :=
  match cursor with
  | none => true
  | some k => k = [] || !le key k

/-! ### Rules for the shared steps

A statement about how a handler ends is proved step by step: at each shared step, for the problem
it may answer and for the rest of the handler. -/

section Rules

variable {S : Type} {answer : (op : Call) → S → op.Ret × S} {s : S} {Q : Reply Body → S → Prop}

theorem ends_ite {b : Prop} [Decidable b] {h h' : Handler} (hb : b → h.Ends answer s Q)
    (hn : ¬ b → h'.Ends answer s Q) : (if b then h else h').Ends answer s Q := by
  split
  · exact hb ‹_›
  · exact hn ‹_›

theorem ends_requireOrgAdmin {c : Ctx} {k : Principal → Handler}
    (hno : (∀ p, c.principal = some p → p.role ≠ .admin) → ∀ pr, Q (.problem pr) s)
    (hk : ∀ p, c.principal = some p → p.role = .admin → (k p).Ends answer s Q) :
    (requireOrgAdmin c k).Ends answer s Q := by
  unfold requireOrgAdmin
  split
  · rename_i p hp
    split
    · exact hk p hp ‹_›
    · rename_i hadm
      exact hno (fun q hq => by rw [hp] at hq; cases hq; exact hadm) _
  · rename_i hp
    exact hno (fun q hq => by rw [hp] at hq; cases hq) _

variable {r : Request}

theorem ends_readBody {k : Bytes → Handler} (hbad : (∀ b, r.body ≠ .ok b) → ∀ pr, Q (.problem pr) s)
    (hk : ∀ b, r.body = .ok b → (k (b.take (2 ^ 16))).Ends answer s Q) :
    (readBody r k).Ends answer s Q := by
  unfold readBody
  split
  · rename_i hb
    exact hbad (fun b h => by rw [hb] at h; cases h) _
  · exact hk _ ‹_›

theorem ends_decodeBody {α : Type} {decode : Bytes → Except Bytes α} {k : α → Handler}
    (hbad : (∀ w, ¬ Sent decode r w) → ∀ pr, Q (.problem pr) s)
    (hk : ∀ w, Sent decode r w → (k w).Ends answer s Q) :
    (decodeBody decode r k).Ends answer s Q := by
  refine ends_readBody (fun h => hbad ?_) fun b hb => ?_
  · rintro w ⟨b, hb, -⟩
    exact h b hb
  split
  · rename_i hd
    refine hbad ?_ _
    rintro w ⟨b', hb', hd'⟩
    obtain rfl := Except.ok.inj (hb.symm.trans hb')
    exact nomatch hd.symm.trans hd'
  · exact hk _ ⟨b, hb, ‹_›⟩

theorem ends_withPageSize {k : Nat → Handler}
    (hbad : parseAdminPageSize (r.queryGet "page_size") = none → ∀ pr, Q (.problem pr) s)
    (hk : ∀ n, parseAdminPageSize (r.queryGet "page_size") = some n → (k n).Ends answer s Q) :
    (withPageSize r k).Ends answer s Q := by
  unfold withPageSize
  split
  · exact hbad ‹_› _
  · exact hk _ ‹_›

theorem ends_withPageToken {α : Type} {decode : Bytes → Option α} {k : Option α → Handler}
    (hbad : pageCursor decode r = none → ∀ pr, Q (.problem pr) s)
    (hk : ∀ cursor, pageCursor decode r = some cursor → (k cursor).Ends answer s Q) :
    (withPageToken decode r k).Ends answer s Q := by
  unfold withPageToken
  split
  · exact hbad ‹_› _
  · exact hk _ ‹_›

end Rules

/-! ### Tenants -/

variable (std : Std) (r : Request) (c : Ctx)

def buildTenantListItem (t : Tenant) (orgs : List Org) : TenantListItem :=
  ⟨t, orgs, orgs.find? fun o => o.name = defaultOrgName⟩

def serveTenantsList : Handler :=
  requireOrgAdmin c fun _ =>
    match c.tenant with
    | some tid =>
      .call (.getTenant tid) <| onOk fun found =>
        match found with
        | none => .done (.json 200 (.tenants [] []))
        | some t => .call (.listOrgs t.id) <| onOk fun orgs =>
          .done (.json 200 (.tenants [buildTenantListItem t orgs] []))
    | none =>
      .call .listTenants <| onOk fun all =>
        let q := trimSpace (r.queryGet "q")
        let ql := std.letters.toLower q
        let kept := if q = [] then all else all.filter fun t =>
          contains ql (std.letters.toLower t.id) ||
            contains ql (std.letters.toLower t.displayName)
        withPageSize r fun size => withPageToken std.decodePageToken r fun cursor =>
          let (shown, next) :=
            page (fun t => afterKey cursor t.id) (fun t => std.encodePageToken t.id) size kept
          .call .listOrgsAll <| onOk fun byTenant =>
            .done (.json 200 (.tenants
              (shown.map fun t => buildTenantListItem t (byTenant t.id)) next))

def serveTenantsCreate : Handler :=
  requireOrgAdmin c fun p =>
    match c.tenant with
    | some tid => scopeMismatch "platform admin required to create tenants" tid
    | none => decodeBody std.tenantCreate r fun req =>
      let id := trimSpace req.id
      let displayName := trimSpace req.displayName
      if id = [] ∨ displayName = [] then badRequest "id and display_name required" []
      else if !validTenantSlug id then badRequest "bad slug" id
      else .call (.createTenant id displayName p.subject) fun res =>
        match res with
        | .ok (t, defaultOrg) => .done (.json 201 (.tenantCreated t defaultOrg))
        | .error e =>
          if e.sentinel = some .tenantExists then
            problem 409 "tenant-exists" "tenant already exists" id
          else if contains "invalid slug" e.text then badRequest "bad slug" id
          else if contains "display_name required" e.text then
            badRequest "display_name required" []
          else storeError

def serveTenants : Handler :=
  match r.method with
  | .get => serveTenantsList std r c
  | .post => serveTenantsCreate std r c
  | _ => methodNotAllowed

variable (id : Bytes)

def serveTenantDelete : Handler :=
  requireOrgAdmin c fun p =>
    match c.tenant with
    | some tid => scopeMismatch "platform admin required to delete tenants" tid
    | none =>
      let id := trimSpace id
      if id = [] then badRequest "missing id" []
      else .call (.getTenant id) <| onOk fun found =>
        match found with
        | none => notFound "tenant not found" id
        | some _ => .call (.deleteTenant id p.subject) fun res =>
          match res with
          | .ok () => .done .noContent
          | .error e =>
            if e.sentinel = some .tenantOwnsOrgs then
              problem 409 "tenant-owns-orgs" "tenant still has orgs; delete orgs first" id
            else if contains "core: delete tenant: not found" e.text then
              notFound "tenant not found" id
            else storeError

/-- `POST /v1/tenants/{id}:tier`.  There is no tenant check. -/
def serveTenantTierPost : Handler :=
  requireOrgAdmin c fun p => readBody r fun body =>
    if body = [] then badRequest "empty body" []
    else match std.tenantTier body with
      | .error e => badRequest "bad json" e
      | .ok req =>
        if req.isolationTier = [] then badRequest "isolation_tier required" []
        else .call (.getTenant id) <| onOk fun found =>
          match found with
          | none => notFound "tenant not found" id
          | some _ => .call (.updateTenantTier id req.isolationTier p.subject) fun res =>
            match res with
            | .ok () => .call (.getTenant id) <| onOk fun cur =>
              .done (.json 200 (.tenant (cur.getD ⟨[], [], [], [], 0, 0⟩)))
            | .error e =>
              if e.sentinel = some .tierDowngrade then
                problem 409 "tier-downgrade" "isolation_tier downgrade refused" []
              else if e.sentinel = some .tierValidation then
                badRequest "bad isolation_tier" req.isolationTier
              else if contains "core: update tenant tier: not found" e.text then
                notFound "tenant not found" id
              else storeError

def serveTenantTier : Handler :=
  let rest := (cutPrefix "/v1/tenants/" r.path).getD r.path
  if rest = [] then badRequest "missing id" []
  else if r.method = .delete then
    if contains ":" rest then methodNotAllowed else serveTenantDelete c rest
  else if r.method ≠ .post then methodNotAllowed
  else match cutSuffix ":tier" rest with
    | none => notFound "tenant subresource not found" rest
    | some id =>
      if id = [] then badRequest "missing id" [] else serveTenantTierPost std r c id

/-! ### Organisations -/

def serveOrgsList : Handler :=
  requireOrgAdmin c fun _ =>
    let asked := r.queryGet "tenant_id"
    match c.tenant with
    | some tid =>
      if asked ≠ [] ∧ asked ≠ tid then scopeMismatch "tenant scope mismatch" asked
      else list tid
    | none => list asked
where
  /-- The listing, once the tenant is settled. -/
  list (tenantID : Bytes) : Handler :=
    if tenantID = [] then badRequest "missing tenant_id" []
    else .call (.getTenant tenantID) <| onOk fun found =>
      match found with
      | none => notFound "tenant not found" tenantID
      | some _ => .call (.listOrgs tenantID) <| onOk fun items =>
        withPageSize r fun size => withPageToken std.decodePageToken r fun cursor =>
          let (shown, next) := page (fun o => afterKey cursor o.name)
            (fun o => std.encodePageToken o.name) size items
          .done (.json 200 (.orgs shown next))

def serveOrgsCreate : Handler :=
  requireOrgAdmin c fun p => decodeBody std.orgCreate r fun req =>
    if req.tenantID = [] then badRequest "missing tenant_id" []
    else if req.name = [] then badRequest "missing name" []
    else if !validTenantSlug req.name then badRequest "bad slug" req.name
    else if c.tenant.any (· ≠ req.tenantID) then
      scopeMismatch "tenant scope mismatch" req.tenantID
    else .call (.createOrg req.tenantID req.name p.subject) fun res =>
      match res with
      | .ok o => .done (.json 201 (.org o))
      | .error e =>
        if e.sentinel = some .orgNameConflict then
          problem 409 "org-name-conflict" "org name already exists in tenant" req.name
        else if contains "core: create org: tenant not found" e.text then
          notFound "tenant not found" req.tenantID
        else if orgIsBadSlug e then badRequest "bad slug" req.name
        else storeError
where
  orgIsBadSlug (e : StoreError) : Bool :=
    contains "core: create org: invalid slug" e.text ||
      contains "core: rename org: invalid slug" e.text

def orgIsNotFound (e : StoreError) : Bool :=
  contains "core: rename org: not found" e.text || contains "core: delete org: not found" e.text

/-- The org of the URL, once it is known to be the request tenant's. -/
def withOwnOrg (k : Org → Handler) : Handler :=
  .call (.getOrg id) <| onOk fun found =>
    match found with
    | none => notFound "org not found" id
    | some o =>
      if c.tenant.any (· ≠ o.tenantID) then scopeMismatch "tenant scope mismatch" o.tenantID
      else k o

def serveOrgGet : Handler :=
  requireOrgAdmin c fun _ => withOwnOrg c id fun o => .done (.json 200 (.org o))

def serveOrgRename : Handler :=
  requireOrgAdmin c fun p => withOwnOrg c id fun _ => decodeBody std.orgRename r fun req =>
    if req.name = [] then badRequest "missing name" []
    else if !validTenantSlug req.name then badRequest "bad slug" req.name
    else .call (.renameOrg id req.name p.subject) fun res =>
      match res with
      | .ok () => .call (.getOrg id) <| onOk fun updated =>
        .done (.json 200 (.org (updated.getD ⟨[], [], [], 0⟩)))
      | .error e =>
        if e.sentinel = some .orgNameConflict then
          problem 409 "org-name-conflict" "org name already exists in tenant" req.name
        else if orgIsNotFound e then notFound "org not found" id
        else if serveOrgsCreate.orgIsBadSlug e then badRequest "bad slug" req.name
        else storeError

def serveOrgDelete : Handler :=
  requireOrgAdmin c fun p => withOwnOrg c id fun _ =>
    .call (.deleteOrg id p.subject) fun res =>
      match res with
      | .ok () => .done .noContent
      | .error e =>
        if e.sentinel = some .orgOwnsResources then
          problem 409 "org-owns-resources" "org owns resources" id
        else if orgIsNotFound e then notFound "org not found" id
        else storeError

def serveOrgs : Handler :=
  match r.method with
  | .get => serveOrgsList std r c
  | .post => serveOrgsCreate std r c
  | _ => methodNotAllowed

/-- `^og_[A-Z2-7]{16}$`. -/
def orgIDPattern : Bool :=
  match cutPrefix "og_" id with
  | none => false
  | some s => s.length == 16 && s.all fun c => isUpper c || (('2' : UInt8) ≤ c && c ≤ '7')

def serveOrg : Handler :=
  let rest := (cutPrefix "/v1/orgs/" r.path).getD r.path
  if rest = [] then badRequest "missing id" []
  else
    let isRename := (cutSuffix ":rename" rest).isSome
    let id := (cutSuffix ":rename" rest).getD rest
    if id = [] then badRequest "missing id" []
    else if !orgIDPattern id then badRequest "bad org id" id
    else match isRename, r.method with
      | true, .post => serveOrgRename std r c id
      | false, .get => serveOrgGet c id
      | false, .delete => serveOrgDelete c id
      | _, _ => methodNotAllowed

/-! ### Sites -/

def serveSiteOrgsList : Handler :=
  requireOrgAdmin c fun _ => .call .listSiteOrgs <| onOk fun all =>
    let orgID := r.queryGet "org_id"
    let q := trimSpace (r.queryGet "q")
    let ql := std.letters.toLower q
    let byOrg := if orgID = [] then all else all.filter fun so => so.orgID = orgID
    let kept := if q = [] then byOrg
      else byOrg.filter fun so => contains ql (std.letters.toLower so.site)
    let sorted := kept.insertionSort fun a b => le a.site b.site = true
    withPageSize r fun size => withPageToken std.decodePageToken r fun cursor =>
      let (shown, next) := page (fun so => afterKey cursor so.site)
        (fun so => std.encodePageToken so.site) size sorted
      .done (.json 200 (.siteOrgs shown next))

def serveSiteOrgsAttach : Handler :=
  requireOrgAdmin c fun p => decodeBody std.siteOrgAttach r fun req =>
    let site := trimSpace req.site
    let orgID := trimSpace req.orgID
    if site = [] ∨ orgID = [] then badRequest "site and org_id required" []
    else .call (.attachSiteToOrg site orgID p.subject) fun res =>
      match res with
      | .error e =>
        if e.sentinel = some .siteSlug then badRequest "invalid site slug" site
        else if e.sentinel = some .siteOrgNotFound then notFound "org not found" orgID
        else storeError
      | .ok () => .call (.getSiteOrg site) fun got =>
        match got with
        | .ok (some so) => .done (.json 200 (.siteOrg so))
        | _ => internalProblem "store error after attach"

def serveSiteOrgsDetach : Handler :=
  requireOrgAdmin c fun p =>
    let site := trimSpace (r.queryGet "site")
    if site = [] then badRequest "site query required" []
    else .call (.detachSiteFromOrg site p.subject) fun res =>
      match res with
      | .ok () => .done .noContent
      | .error e =>
        if contains "core: detach site from org: not found" e.text then
          notFound "site not found" site
        else storeError

def serveSiteOrgs : Handler :=
  match r.method with
  | .get => serveSiteOrgsList std r c
  | .post => serveSiteOrgsAttach std r c
  | .delete => serveSiteOrgsDetach r c
  | _ => methodNotAllowed

/-! ### Role bindings -/

/-- After a (subject, scope) cursor. -/
def afterPair (cursor : Option (Bytes × Bytes)) (rb : RoleBinding) : Bool :=
  match cursor with
  | none => true
  | some (sub, sc) =>
    !((le rb.subject sub && rb.subject ≠ sub) || (rb.subject = sub && le rb.scope sc))

def serveRoleBindingsList : Handler :=
  requireOrgAdmin c fun _ =>
    let subject := trimSpace (r.queryGet "subject")
    let q := trimSpace (r.queryGet "q")
    let ql := std.letters.toLower q
    if subject ≠ [] then
      .call (.listRoleBindings subject) <| onOk fun items =>
        withPageSize r fun size => withPageToken std.decodePageToken r fun cursor =>
          let (shown, next) := page (fun rb => afterKey cursor rb.scope)
            (fun rb => std.encodePageToken rb.scope) size items
          .done (.json 200 (.roleBindings shown next))
    else
      .call .listAllRoleBindings <| onOk fun items =>
        let kept := if q = [] then items else items.filter fun rb =>
          contains ql (std.letters.toLower rb.subject)
        withPageSize r fun size => withPageToken std.decodePageTokenPair r fun cursor =>
          let (shown, next) := page (afterPair cursor)
            (fun rb => std.encodePageTokenPair rb.subject rb.scope) size kept
          .done (.json 200 (.roleBindings shown next))

/-- The scope is stored as it comes, once trimmed; nothing reads it here. -/
def serveRoleBindingsPut : Handler :=
  requireOrgAdmin c fun _ => decodeBody std.roleBindingWrite r fun req =>
    let subject := trimSpace req.subject
    let scope := trimSpace req.scope
    let asked := trimSpace req.origin
    if subject = [] ∨ scope = [] then badRequest "subject and scope required" []
    else
      let origin : Bytes := if asked = [] then "legacy" else asked
      if origin ≠ "legacy" ∧ origin ≠ "crn" then badRequest "origin must be legacy or crn" origin
      else
        let rb : RoleBinding := ⟨std.newRoleBindingID, subject, scope, origin, std.now, std.now⟩
        .call (.putRoleBinding rb) fun res =>
          match res with
          | .error e => badRequest "put role binding" e.text
          | .ok () => .call (.listRoleBindings subject) <| onOk fun rows =>
            match rows.find? fun row => row.scope = scope with
            | some row => .done (.json 200 (.roleBinding row))
            | none => .done (.json 200 (.roleBinding rb))

def serveRoleBindingsDelete : Handler :=
  requireOrgAdmin c fun _ =>
    let subject := trimSpace (r.queryGet "subject")
    let scope := trimSpace (r.queryGet "scope")
    if subject = [] ∨ scope = [] then badRequest "subject and scope query required" []
    else .call (.deleteRoleBinding subject scope) fun res =>
      match res with
      | .ok () => .done .noContent
      | .error _ => storeError

def serveRoleBindings : Handler :=
  match r.method with
  | .get => serveRoleBindingsList std r c
  | .post => serveRoleBindingsPut std r c
  | .delete => serveRoleBindingsDelete r c
  | _ => methodNotAllowed

end Cios.Http.Admin
