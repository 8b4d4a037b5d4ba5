import Cios.Store.FileStore

/-!
# Store — the database store's tenancy methods

`pgStore` (`core/pg_store.go`) keeps the same five tables in Postgres.  A method is one statement
or one transaction, so it changes the tables as a whole or not at all; what the schema refuses
(`migrations/015` to `017`) comes back as an error.  The connection may fail before a statement has
run, and after it, when the client cannot tell whether the server has committed (`Fault`).

Only the methods the v1.1 migration calls are here.
-/

namespace Cios.Store
open Text

/-- A failure of the database, with the error text the method returns. -/
inductive Fault where
  | before (text : Bytes)
  | after (text : Bytes) (committed : Bool)
deriving DecidableEq, Repr

namespace PgStore

variable (amb : Ambient) (fault : Option Fault) (constraint : Bytes) (st : FileStore)

def read {α : Type} (a : α) : Except StoreError α :=
  match fault with
  | none => .ok a
  | some (.before text) | some (.after text _) => .error (.plain text)

/-- A statement or transaction that leads to `st'`. -/
def write {α : Type} (a : α) (st' : FileStore) : Except StoreError α × FileStore :=
  match fault with
  | none => (.ok a, st')
  | some (.before text) => (.error (.plain text), st)
  | some (.after text committed) => (.error (.plain text), if committed then st' else st)

/-- What runs once the connection is there. -/
def begin {α : Type} (run : Except StoreError α × FileStore) : Except StoreError α × FileStore :=
  match fault with
  | some (.before text) => (.error (.plain text), st)
  | _ => run

/-- The tables with one more audit row, unless its id is taken. -/
def appendTenantAudit {α : Type} (ta : TenantAudit) (a : α) (st' : FileStore) :
    Except StoreError α × FileStore :=
  if st.tenantAuds.any fun x => x.id = ta.id then (.error (.plain constraint), st)
  else write fault st a { st' with tenantAuds := st'.tenantAuds ++ [ta] }

/-- The unique keys are checked as the row goes in, the reference to the tenant after it. -/
def createOrg (tenantID name principal : Bytes) : Except StoreError Org × FileStore :=
  if !validTenantSlug name then (.error (.plain "core: create org: invalid slug"), st)
  else begin fault st <|
    let o : Org := ⟨amb.newOrgID, tenantID, name, amb.now⟩
    if st.orgs.rows.any fun x => x.id = o.id || (x.tenantID = tenantID && x.name = name) then
      (.error Sentinel.orgNameConflict, st)
    else if (st.tenants.get tenantID).isNone then
      (.error (.plain "core: create org: tenant not found"), st)
    else
      appendTenantAudit fault constraint st
        (FileStore.audit amb principal tenantID "org_create" (o.id ++ lit ":" ++ name)) o
        { st with orgs := st.orgs.put o }

def attachSiteToOrg (site orgID principal : Bytes) : Except StoreError Unit × FileStore :=
  if !validSiteSlug site then (.error Sentinel.siteSlug, st)
  else begin fault st <|
    match st.orgs.get orgID with
    | none => (.error (.plain "core: attach site to org: not found"), st)
    | some o =>
      let write' := fun (createdAt : Int) (detail : Bytes) =>
        appendTenantAudit fault constraint st
          (FileStore.audit amb principal o.tenantID "org_reattach" detail) ()
          { st with siteOrgs := st.siteOrgs.put ⟨site, orgID, createdAt, amb.now⟩ }
      match st.siteOrgs.get site with
      | some cur =>
        if cur.orgID = orgID then write fault st () st
        else write' cur.createdAt (site ++ lit ": " ++ cur.orgID ++ lit "→" ++ orgID)
      | none => write' amb.now (site ++ lit "→" ++ orgID)

/-- `INSERT … ON CONFLICT (subject, scope) DO UPDATE`: the origin is checked first, the primary key
for a new grant only. -/
def putRoleBinding (rb : RoleBinding) : Except StoreError Unit × FileStore :=
  if rb.subject = [] || rb.scope = [] then
    (.error (.plain "core: put role binding: subject and scope required"), st)
  else
    let origin : Bytes := if rb.origin = [] then "legacy" else rb.origin
    let id := if rb.id = [] then amb.newRoleBindingID else rb.id
    begin fault st <|
      if origin ≠ "legacy" ∧ origin ≠ "crn" then (.error (.plain constraint), st)
      else match st.roleBindings.get rb.grant with
        | some existing =>
          write fault st () { st with
            roleBindings :=
              st.roleBindings.put { existing with origin := origin, updatedAt := amb.now } }
        | none =>
          if st.roleBindings.rows.any fun x => x.id = id then (.error (.plain constraint), st)
          else
            write fault st () { st with
              roleBindings :=
                st.roleBindings.put ⟨id, rb.subject, rb.scope, origin, amb.now, amb.now⟩ }

def deleteRoleBinding (subject scope : Bytes) : Except StoreError Unit × FileStore :=
  if subject = [] || scope = [] then
    (.error (.plain "core: delete role binding: subject and scope required"), st)
  else
    write fault st () { st with roleBindings := st.roleBindings.erase (subject, scope) }

/-! ### What each can do -/

theorem begin_ind {α : Type} {P : Except StoreError α × FileStore → Prop}
    {run : Except StoreError α × FileStore} (h₀ : ∀ text, P (.error (.plain text), st))
    (h : P run) :
    P (begin fault st run) := by
  unfold begin
  split
  · exact h₀ _
  · exact h

/-- A write leaves the tables, or leads to the new ones, always so when it succeeds. -/
theorem write_ind {α : Type} {P : Except StoreError α × FileStore → Prop} {a : α}
    {st' : FileStore} (h : P (.ok a, st')) (h₀ : ∀ text, P (.error (.plain text), st))
    (h₁ : ∀ text, P (.error (.plain text), st')) : P (write fault st a st') := by
  rcases fault with _ | ⟨text⟩ | ⟨text, _ | _⟩
  · exact h
  · exact h₀ _
  · exact h₀ _
  · exact h₁ _

theorem appendTenantAudit_ind {α : Type} {P : Except StoreError α × FileStore → Prop}
    {ta : TenantAudit} {a : α} {st' : FileStore} (h₀ : ∀ text, P (.error (.plain text), st))
    (h : ∀ auds, P (.ok a, { st' with tenantAuds := auds }))
    (h₁ : ∀ auds text, P (.error (.plain text), { st' with tenantAuds := auds })) :
    P (appendTenantAudit fault constraint st ta a st') := by
  unfold appendTenantAudit
  split
  · exact h₀ _
  · exact write_ind fault st (h _) h₀ (h₁ _)

end PgStore

end Cios.Store
