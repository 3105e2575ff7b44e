import TrafficControl.TrafficOps.Tenant.Utils

set_option autoImplicit false

namespace Tenants

open Relation

/-- No way up from a tenant has more steps. -/
def DepthAtMost (tenantsData : TenantsData) (limit : Nat) : Prop :=
  ∀ id, Orbit.visit (parentOf tenantsData) (limit + 1) id = none

def isActive (tenantsData : TenantsData) (id : Int) : Bool := (tenantsData.lookup id).any Tenant.active

def Tenancy.IsAbove (tenancy : Tenancy) (anchestor descendant : Int) : Prop :=
  ReflTransGen (fun parent child => tenancy.isParent parent child) anchestor descendant

/-- What both checks are for. -/
def Tenancy.MayAccess (tenancy : Tenancy) (userTenant resourceTenant : Int) : Prop :=
  tenancy.useTenancy = true → isActive tenancy.tenants userTenant = true ∧ tenancy.IsAbove userTenant resourceTenant

def ChecksAgree (tenancy : Tenancy) (user : CurrentUser) (resourceTenant : Int) : Prop :=
  ∃ decision,
    isResourceAccessableToTenant tenancy.tenants tenancy.useTenancy (some (.ofId resourceTenant)) (some user.tenantId) =
        some decision ∧
      isResourceAuthorizedToUser tenancy resourceTenant user = decision ∧
      (decision = true ↔ tenancy.MayAccess user.tenantId resourceTenant)

variable {tenancy : Tenancy}

theorem isAbove_iff_visit {anchestor descendant : Int} : tenancy.IsAbove anchestor descendant ↔
    ∃ k, Orbit.visit (parentOf tenancy.tenants) k descendant = some anchestor := by
  rw [← Orbit.reflTransGen_iff_visit, ← reflTransGen_swap]
  exact Iff.rfl

theorem isAnchestorOf_bounded (bounded : DepthAtMost tenancy.tenants 99) {anchestor descendant : Int}
    (above : anchestor ∈ tenancy.tenants) (below : descendant ∈ tenancy.tenants) :
    ∃ answer, isAnchestorOf tenancy.tenants (.ofId anchestor) (.ofId descendant) = some answer ∧
      (answer = true ↔ tenancy.IsAbove anchestor descendant) := by
  rw [isAnchestorOf_ofId above below, isAbove_iff_visit]
  have decided : (Forest.climb (parentOf tenancy.tenants) anchestor maxHeirarchyLimit descendant).isSome = true :=
    Forest.climb_isSome (bounded descendant)
  obtain ⟨answer, climbed⟩ := Option.isSome_iff_exists.mp decided
  refine ⟨answer, climbed, ?_⟩
  have reached : Forest.climb (parentOf tenancy.tenants) anchestor maxHeirarchyLimit descendant = some true ↔ _ :=
    Forest.climb_eq_true_iff
  constructor
  · rintro rfl
    obtain ⟨k, -, up⟩ := reached.mp climbed
    exact ⟨k, up⟩
  · rintro ⟨k, up⟩
    have within : k ≤ maxHeirarchyLimit := by
      by_contra late
      have none := Orbit.visit_none_of_le (bounded descendant) (Nat.le_of_not_le late)
      exact absurd (none.symm.trans up) (Option.some_ne_none _).symm
    exact Option.some.inj (climbed.symm.trans (reached.mpr ⟨k, within, up⟩))

theorem isResourceAccessable_used (used : tenancy.useTenancy = true) (bounded : DepthAtMost tenancy.tenants 99)
    {user resource : Int} (userKnown : user ∈ tenancy.tenants) (resourceKnown : resource ∈ tenancy.tenants) :
    ∃ decision, isResourceAccessableToTenant tenancy.tenants tenancy.useTenancy (some (.ofId resource)) (some user) =
        some decision ∧
      (decision = true ↔ isActive tenancy.tenants user = true ∧ tenancy.IsAbove user resource) := by
  obtain ⟨record, found⟩ := Option.isSome_iff_exists.mp (AList.lookup_isSome.mpr userKnown)
  obtain ⟨answer, climbed, correct⟩ := isAnchestorOf_bounded bounded userKnown resourceKnown
  refine ⟨record.active && (user = resource || answer), ?_, ?_⟩
  · simp only [isResourceAccessableToTenant, used, if_true, found, Option.map_some, Option.all_some, climbed, Option.getD_some]
    rfl
  · have same : user = resource → tenancy.IsAbove user resource := by
      rintro rfl
      exact .refl
    simp only [Bool.and_eq_true, Bool.or_eq_true, decide_eq_true_eq, correct, isActive, found, Option.any_some]
    exact and_congr_right fun _ => ⟨fun either => either.elim same id, .inr⟩

theorem isResourceAuthorized_used (used : tenancy.useTenancy = true) {user : CurrentUser} {resource : Int}
    (userKnown : user.tenantId ∈ tenancy.tenants) : isResourceAuthorizedToUser tenancy resource user = true ↔
      isActive tenancy.tenants resource = true ∧ tenancy.IsAbove user.tenantId resource := by
  rw [isResourceAuthorizedToUser_iff used]
  simp [isActive, Option.any_eq_true, userKnown, Tenancy.IsAbove]

/-- One check asks whether the user's tenant is active, the other whether the resource's is. -/
theorem checksAgree_iff (bounded : DepthAtMost tenancy.tenants 99) {user : CurrentUser} {resource : Int}
    (userKnown : user.tenantId ∈ tenancy.tenants) (resourceKnown : resource ∈ tenancy.tenants) :
    ChecksAgree tenancy user resource ↔ (tenancy.useTenancy = true → tenancy.IsAbove user.tenantId resource →
      isActive tenancy.tenants user.tenantId = isActive tenancy.tenants resource) := by
  cases used : tenancy.useTenancy with
  | false =>
    simp only [Bool.false_eq_true, false_imp_iff, iff_true]
    exact ⟨true, by simp [isResourceAccessableToTenant, used], by simp [isResourceAuthorizedToUser, used],
      by simp [Tenancy.MayAccess, used]⟩
  | true =>
    obtain ⟨decision, decided, correct⟩ := isResourceAccessable_used used bounded userKnown resourceKnown
    have authorized : isResourceAuthorizedToUser tenancy resource user = true ↔ _ := isResourceAuthorized_used used userKnown
    constructor
    · rintro ⟨_, perl, go, -⟩ - above
      obtain rfl := Option.some.inj (decided.symm.trans perl)
      rw [go, correct] at authorized
      exact Bool.eq_iff_iff.mpr (by simpa [above] using authorized)
    · intro alike
      refine ⟨decision, decided, Bool.eq_iff_iff.mpr ?_, ?_⟩
      · rw [authorized, correct]
        refine and_congr_left fun above => ?_
        rw [alike rfl above]
      · rw [correct]
        exact ⟨fun may _ => may, fun may => may used⟩

-- Two tenants, the child active or not.
def twoTenants (childActive : Bool) : Tenancy :=
  ⟨true, ((∅ : TenantsData).insert 1 ⟨true, none⟩).insert 2 ⟨childActive, some 1⟩⟩

theorem twoTenants_bounded (childActive : Bool) : DepthAtMost (twoTenants childActive).tenants 99 := by
  intro id
  refine Orbit.visit_none_of_le (m := 2) ?_ (by decide)
  by_cases first : id = 1
  · subst first
    rfl
  · by_cases second : id = 2
    · subst second
      rfl
    · have missing : parentOf (twoTenants childActive).tenants id = none := by
        rw [parentOf, twoTenants, AList.lookup_insert_ne second, AList.lookup_insert_ne first]
        rfl
      rw [Orbit.visit_succ, missing]
      rfl

theorem checksAgree_active : ChecksAgree (twoTenants true) ⟨4, 20, 1⟩ 2 :=
  (checksAgree_iff (twoTenants_bounded true) (by decide) (by decide)).mpr fun _ _ => by decide

theorem not_checksAgree : ¬∀ (tenancy : Tenancy) (user : CurrentUser) (resource : Int),
    DepthAtMost tenancy.tenants 99 → user.tenantId ∈ tenancy.tenants → resource ∈ tenancy.tenants →
      ChecksAgree tenancy user resource := by
  intro agree
  obtain ⟨decision, perl, go, -⟩ := agree (twoTenants false) ⟨4, 20, 1⟩ 2 (twoTenants_bounded false) (by decide) (by decide)
  have allowed : some true = some decision := perl
  have denied : false = decision := go
  exact absurd (Option.some.inj allowed) (denied ▸ by decide)

end Tenants
