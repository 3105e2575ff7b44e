import Mathlib.Data.List.AList
import TrafficControl.Lib.Closure

set_option autoImplicit false

namespace Tenants

structure CurrentUser where
  id : Int
  privLevel : Int
  tenantId : Int

structure Tenant where
  active : Bool
  parentId : Option Int

-- The table of tenants and the parameter `use_tenancy`.
structure Tenancy where
  useTenancy : Bool
  tenants : AList fun _ : Int => Tenant

variable (tenancy : Tenancy)

def Tenancy.isParent (parent child : Int) : Prop := (tenancy.tenants.lookup child).bind Tenant.parentId = some parent

instance : DecidableRel tenancy.isParent :=
  fun parent child => inferInstanceAs (Decidable ((tenancy.tenants.lookup child).bind Tenant.parentId = some parent))

/-- The recursive query: a tenant and all below it. -/
def Tenancy.below (root : Int) : Finset Int :=
  Closure.closure tenancy.tenants.keys.toFinset tenancy.isParent (tenancy.tenants.keys.toFinset.filter (· = root))

def isResourceAuthorizedToUser (resourceTenantId : Int) (user : CurrentUser) : Bool :=
  !tenancy.useTenancy ||
    (decide (resourceTenantId ∈ tenancy.below user.tenantId) &&
      (tenancy.tenants.lookup resourceTenantId).any Tenant.active)

variable {tenancy}

theorem mem_below {root id : Int} : id ∈ tenancy.below root ↔ root ∈ tenancy.tenants ∧
    Relation.ReflTransGen (fun parent child => tenancy.isParent parent child) root id := by
  have keyed : ∀ parent child, tenancy.isParent parent child → child ∈ tenancy.tenants.keys.toFinset := by
    intro parent child edge
    obtain ⟨tenant, found, -⟩ := Option.bind_eq_some_iff.mp edge
    rw [List.mem_toFinset, ← AList.mem_keys, ← AList.lookup_isSome, found]
    rfl
  have edges : (fun parent child => child ∈ tenancy.tenants.keys.toFinset ∧ tenancy.isParent parent child) =
      tenancy.isParent := by
    funext parent child
    exact propext ⟨And.right, fun edge => ⟨keyed parent child edge, edge⟩⟩
  rw [Tenancy.below, Closure.mem_closure_iff, edges]
  simp [← AList.mem_keys]

/-- With tenancy in use, a resource is open to the users of the tenants above its own, if its own is active. -/
theorem isResourceAuthorizedToUser_iff (used : tenancy.useTenancy = true) {resourceTenantId : Int} {user : CurrentUser} :
    isResourceAuthorizedToUser tenancy resourceTenantId user = true ↔
      (∃ tenant, tenancy.tenants.lookup resourceTenantId = some tenant ∧ tenant.active = true) ∧
        user.tenantId ∈ tenancy.tenants ∧
        Relation.ReflTransGen (fun parent child => tenancy.isParent parent child) user.tenantId resourceTenantId := by
  simp [isResourceAuthorizedToUser, used, mem_below, Option.any_eq_true, and_comm]

end Tenants
