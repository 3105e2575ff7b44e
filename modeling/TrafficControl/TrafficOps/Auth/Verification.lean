import TrafficControl.TrafficOps.Auth.Password

set_option autoImplicit false

-- Which stored passwords are accepted, and which make the parser run off their parts.
namespace Password

open PaddedBase64 (encodeToString decodeString)

-- `maxInt` is that of 64 bits.
def ValidParameters (n r p : Int) : Prop :=
  (∃ k < 63, 0 < k ∧ n = 2 ^ k) ∧ 0 < r ∧ 0 < p ∧ r * p < 2 ^ 30 ∧ r ≤ (2 ^ 63 - 1) / 128 / p ∧
    r ≤ (2 ^ 63 - 1) / 256 ∧ n ≤ (2 ^ 63 - 1) / 128 / r

instance (n r p : Int) : Decidable (ValidParameters n r p) := inferInstanceAs (Decidable (_ ∧ _))

/-- The key has the length that was asked for, and invalid parameters are rejected. -/
structure ScryptKey.Documented (key : ScryptKey) : Prop where
  length : ∀ password salt n r p keyLen dk, key password salt n r p keyLen = .ok dk → dk.length = keyLen
  accepts : ∀ password salt n r p keyLen, (∃ dk, key password salt n r p keyLen = .ok dk) ↔ ValidParameters n r p

/-- `SCRYPT:N:r:p:salt:key`, with the key of the password. -/
def HasForm (key : ScryptKey) (password : List UInt8) (parts : List (List UInt8)) : Prop :=
  ∃ nText rText pText saltText dkText n r p salt dk,
    parts = [algorithmName, nText, rText, pText, saltText, dkText] ∧ atoi nText = .ok n ∧ atoi rText = .ok r ∧
      atoi pText = .ok p ∧ decodeString saltText = some salt ∧ salt ≠ [] ∧ decodeString dkText = some dk ∧
      key password salt n r p 64 = .ok dk

structure VerifiesExactly (key : ScryptKey) (password scryptPassword : List UInt8) : Prop where
  parses : parseScrypt scryptPassword ≠ .error .panic
  returns : verifyPassword key password scryptPassword ≠ .error .panic
  accepts : verifyPassword key password scryptPassword = .ok () ↔ HasForm key password (scryptPassword.splitOn colon)

section Parts

def isNumber (text : List UInt8) : Bool := (atoi text).toBool

def isSalt (text : List UInt8) : Bool := (decodeString text).any (· ≠ [])

def isKey (text : List UInt8) : Bool := (decodeString text).isSome

def checks : List (List UInt8 → Bool) := [(· == algorithmName), isNumber, isNumber, isNumber, isSalt, isKey]

/-- There are too few parts, and none of them is wrong. -/
def RunsOff (scryptPassword : List UInt8) : Prop :=
  let parts := scryptPassword.splitOn colon
  parts.length < 6 ∧ ∀ pair ∈ parts.zip checks, pair.2 pair.1 = true

/-- A part that is read: without a panic, and with a result if it passes its check. -/
structure Checked {α : Type} (read : List UInt8 → Except Fault α) (check : List UInt8 → Bool) : Prop where
  ok : ∀ text, (∃ value, read text = .ok value) ↔ check text = true
  quiet : ∀ text, read text ≠ .error .panic

theorem checked_algorithm : Checked readAlgorithm (· == algorithmName) := by
  constructor
  · intro text
    unfold readAlgorithm
    by_cases none : text = []
    · subst none
      simp [algorithmName]
    · rw [if_neg none]
      by_cases same : text = algorithmName <;> simp [same, defaultParams]
  · intro text
    unfold readAlgorithm
    split
    · simp
    · split <;> simp

theorem atoi_nil : atoi [] = .error (.invalid, 0) := rfl

theorem checked_n : Checked readN isNumber := by
  constructor
  · intro text
    unfold readN isNumber
    by_cases none : text = []
    · subst none
      simp [atoi_nil, Except.toBool]
    · rw [if_neg none]
      cases atoi text <;> simp [Except.mapError, Except.toBool]
  · intro text
    unfold readN
    split
    · simp
    · cases atoi text <;> simp [Except.mapError]

theorem checked_parameter (name : String) : Checked (readParameter name) isNumber := by
  constructor
  · intro text
    unfold readParameter isNumber
    by_cases none : text = []
    · subst none
      simp [atoi_nil, Except.toBool]
    · rw [if_neg none]
      cases atoi text <;> simp [Except.mapError, Except.toBool]
  · intro text
    unfold readParameter
    split
    · simp
    · cases atoi text <;> simp [Except.mapError]

theorem readSalt_iff {text salt : List UInt8} : readSalt text = .ok salt ↔ decodeString text = some salt ∧ salt ≠ [] := by
  unfold readSalt
  cases decodeString text with
  | none => simp
  | some bytes =>
    cases bytes with
    | nil => simp +contextual [eq_comm]
    | cons byte bytes =>
      have nonempty : byte :: bytes = salt → salt ≠ [] := fun same => same ▸ List.cons_ne_nil _ _
      simpa using nonempty

theorem readKey_iff {text dk : List UInt8} : readKey text = .ok dk ↔ decodeString text = some dk := by
  unfold readKey
  cases decodeString text <;> simp

theorem checked_salt : Checked readSalt isSalt := by
  constructor
  · intro text
    simp only [readSalt_iff, isSalt, Option.any_eq_true, decide_eq_true_eq]
  · intro text
    unfold readSalt
    cases decodeString text with
    | none => simp
    | some bytes => cases bytes <;> simp

theorem checked_key : Checked readKey isKey := by
  constructor
  · intro text
    simp only [readKey_iff, isKey, Option.isSome_iff_exists]
  · intro text
    unfold readKey
    cases decodeString text <;> simp

variable {α β : Type} {sh : List (List UInt8)} {i : Nat}

theorem field_ok_iff {read : List UInt8 → Except Fault α} {value : α} :
    field sh i read = .ok value ↔ ∃ text, sh[i]? = some text ∧ read text = .ok value := by
  unfold field
  cases sh[i]? <;> simp

theorem field_panic {read : List UInt8 → Except Fault α} {check : List UInt8 → Bool} (checked : Checked read check)
    {next : α → Except Fault β} {later : Prop} (after : ∀ value, next value = .error .panic ↔ later) :
    (field sh i read >>= next) = .error .panic ↔ sh[i]? = none ∨ (∃ text, sh[i]? = some text ∧ check text = true) ∧ later := by
  rw [ExceptList.bind_error_iff]
  simp only [after, field_ok_iff]
  unfold field
  cases sh[i]? with
  | none => simp
  | some text =>
    simp only [checked.quiet text, ← checked.ok, false_or, Option.some.injEq, exists_eq_left', reduceCtorEq]
    exact ⟨fun ⟨value, ok, last⟩ => ⟨⟨value, ok⟩, last⟩, fun ⟨⟨value, ok⟩, last⟩ => ⟨value, ok, last⟩⟩

theorem runsOff_list (sh : List (List UInt8)) (nonempty : sh ≠ []) (a b c d e f : List UInt8 → Bool) :
    (sh[0]? = none ∨ (∃ text, sh[0]? = some text ∧ a text = true) ∧
      (sh[1]? = none ∨ (∃ text, sh[1]? = some text ∧ b text = true) ∧
        (sh[2]? = none ∨ (∃ text, sh[2]? = some text ∧ c text = true) ∧
          (sh[3]? = none ∨ (∃ text, sh[3]? = some text ∧ d text = true) ∧
            (sh[4]? = none ∨ (∃ text, sh[4]? = some text ∧ e text = true) ∧
              (sh[5]? = none ∨ (∃ text, sh[5]? = some text ∧ f text = true) ∧ False)))))) ↔
      sh.length < 6 ∧ ∀ pair ∈ sh.zip [a, b, c, d, e, f], pair.2 pair.1 = true := by
  rcases sh with _ | ⟨t0, _ | ⟨t1, _ | ⟨t2, _ | ⟨t3, _ | ⟨t4, _ | ⟨t5, rest⟩⟩⟩⟩⟩⟩
  · exact absurd rfl nonempty
  · simp
  · simp
  · simp
  · simp
  · simp
  · have long : ¬ (t0 :: t1 :: t2 :: t3 :: t4 :: t5 :: rest).length < 6 := by
      simp only [List.length_cons]
      omega
    exact iff_of_false (by simp) fun short => long short.1

theorem parseScrypt_panic (scryptPassword : List UInt8) :
    parseScrypt scryptPassword = .error .panic ↔ RunsOff scryptPassword := by
  unfold parseScrypt RunsOff
  by_cases none : scryptPassword = []
  · subst none
    simp [checks, algorithmName]
  · have nonempty : scryptPassword.splitOn colon ≠ [] := List.splitOn_ne_nil _ _
    rw [if_neg none, checks, ← runsOff_list _ nonempty]
    refine field_panic checked_algorithm fun _ => field_panic checked_n fun _ => field_panic (checked_parameter "r") fun _ =>
      field_panic (checked_parameter "p") fun _ => field_panic checked_salt fun _ => field_panic checked_key fun _ => ?_
    simp [pure, Except.pure]

end Parts

section Accepts

theorem take_six {sh : List (List UInt8)} {a b c d e f : List UInt8} : sh.take 6 = [a, b, c, d, e, f] ↔
    sh[0]? = some a ∧ sh[1]? = some b ∧ sh[2]? = some c ∧ sh[3]? = some d ∧ sh[4]? = some e ∧ sh[5]? = some f := by
  rcases sh with _ | ⟨t0, _ | ⟨t1, _ | ⟨t2, _ | ⟨t3, _ | ⟨t4, _ | ⟨t5, rest⟩⟩⟩⟩⟩⟩ <;> simp

theorem readAlgorithm_iff {text algorithm : List UInt8} :
    readAlgorithm text = .ok algorithm ↔ text = algorithmName ∧ algorithm = algorithmName := by
  unfold readAlgorithm
  by_cases none : text = []
  · subst none
    simp [algorithmName]
  · rw [if_neg none]
    by_cases same : text = algorithmName
    · simp [same, defaultParams, eq_comm]
    · simp [same, defaultParams]

theorem readN_iff {text : List UInt8} {n : Int} : readN text = .ok n ↔ atoi text = .ok n := by
  unfold readN
  split
  · next none =>
    subst none
    simp [atoi_nil]
  · exact ExceptList.mapError_ok_iff

theorem readParameter_iff {name : String} {text : List UInt8} {n : Int} : readParameter name text = .ok n ↔ atoi text = .ok n := by
  unfold readParameter
  split
  · next none =>
    subst none
    simp [atoi_nil]
  · exact ExceptList.mapError_ok_iff

/-- The parser looks at six parts. -/
theorem parseScrypt_ok {scryptPassword : List UInt8} {scomp : SCRYPTComponents} :
    parseScrypt scryptPassword = .ok scomp ↔ ∃ nText rText pText saltText dkText n r p salt dk,
      (scryptPassword.splitOn colon).take 6 = [algorithmName, nText, rText, pText, saltText, dkText] ∧ atoi nText = .ok n ∧
        atoi rText = .ok r ∧ atoi pText = .ok p ∧ decodeString saltText = some salt ∧ salt ≠ [] ∧
        decodeString dkText = some dk ∧ scomp = ⟨algorithmName, n, r, p, salt, salt.length, dk, 0⟩ := by
  have empty : parseScrypt [] ≠ .ok scomp := by simp [parseScrypt]
  by_cases none : scryptPassword = []
  · subst none
    refine iff_of_false empty ?_
    rintro ⟨_, _, _, _, _, _, _, _, _, _, few, _⟩
    cases few
  · unfold parseScrypt
    rw [if_neg none]
    simp only [ExceptList.bind_ok_iff, field_ok_iff, take_six, readAlgorithm_iff, readN_iff, readParameter_iff, readSalt_iff,
      readKey_iff]
    constructor
    · rintro ⟨_, ⟨_, first, rfl, rfl⟩, n, ⟨nText, second, nOk⟩, r, ⟨rText, third, rOk⟩, p, ⟨pText, fourth, pOk⟩, salt,
        ⟨saltText, fifth, saltOk, some_salt⟩, dk, ⟨dkText, sixth, dkOk⟩, same⟩
      exact ⟨nText, rText, pText, saltText, dkText, n, r, p, salt, dk, ⟨first, second, third, fourth, fifth, sixth⟩, nOk, rOk,
        pOk, saltOk, some_salt, dkOk, (Except.ok.inj same).symm⟩
    · rintro ⟨nText, rText, pText, saltText, dkText, n, r, p, salt, dk, ⟨first, second, third, fourth, fifth, sixth⟩, nOk, rOk,
        pOk, saltOk, some_salt, dkOk, rfl⟩
      exact ⟨_, ⟨_, first, rfl, rfl⟩, n, ⟨nText, second, nOk⟩, r, ⟨rText, third, rOk⟩, p, ⟨pText, fourth, pOk⟩, salt,
        ⟨saltText, fifth, saltOk, some_salt⟩, dk, ⟨dkText, sixth, dkOk⟩, rfl⟩

/-- The separators and the parts make up the text. -/
theorem length_splitOn (text : List UInt8) :
    ((text.splitOn colon).map List.length).sum + (text.splitOn colon).length = text.length + 1 := by
  induction text with
  | nil => rfl
  | cons c text ih =>
    rw [List.splitOn_cons_eq_if_modifyHead]
    by_cases same : c = colon
    · simp [same]
      omega
    · obtain ⟨first, rest, split⟩ := List.exists_cons_of_ne_nil (List.splitOn_ne_nil colon text)
      rw [split] at ih ⊢
      simp only [same, beq_iff_eq, if_false, List.modifyHead_cons, List.map_cons, List.sum_cons, List.length_cons] at ih ⊢
      omega

variable {key : ScryptKey} {password scryptPassword : List UInt8}

theorem length_hasForm (documented : key.Documented) (form : HasForm key password ((scryptPassword.splitOn colon).take 6)) :
    64 < scryptPassword.length := by
  obtain ⟨nText, rText, pText, saltText, dkText, n, r, p, salt, dk, parts, _, _, _, _, _, dkOk, keyOk⟩ := form
  have bytes := PaddedBase64.length_decodeString dkOk
  rw [documented.length _ _ _ _ _ _ _ keyOk] at bytes
  have split := List.take_append_drop 6 (scryptPassword.splitOn colon)
  have total := length_splitOn scryptPassword
  rw [← split, parts] at total
  simp only [List.map_append, List.map_cons, List.sum_append, List.sum_cons, List.length_append, List.length_cons] at total
  have name : algorithmName.length = 6 := rfl
  omega

theorem verifyPassword_ok (documented : key.Documented) :
    verifyPassword key password scryptPassword = .ok () ↔ HasForm key password ((scryptPassword.splitOn colon).take 6) := by
  unfold verifyPassword
  rw [ExceptList.bind_ok_iff]
  constructor
  · rintro ⟨scomp, parsed, verified⟩
    obtain ⟨nText, rText, pText, saltText, dkText, n, r, p, salt, dk, parts, nOk, rOk, pOk, saltOk, some_salt, dkOk, rfl⟩ :=
      parseScrypt_ok.mp parsed
    dsimp only at verified
    split at verified
    · cases verified
    · obtain ⟨tmpDK, derived, compared⟩ := ExceptList.bind_ok_iff.mp verified
      split at compared
      · next same =>
        subst same
        exact ⟨nText, rText, pText, saltText, dkText, n, r, p, salt, dk, parts, nOk, rOk, pOk, saltOk, some_salt, dkOk,
          ExceptList.mapError_ok derived⟩
      · cases compared
  · intro form
    have long := length_hasForm documented form
    obtain ⟨nText, rText, pText, saltText, dkText, n, r, p, salt, dk, parts, nOk, rOk, pOk, saltOk, some_salt, dkOk, keyOk⟩ := form
    refine ⟨_, parseScrypt_ok.mpr ⟨nText, rText, pText, saltText, dkText, n, r, p, salt, dk, parts, nOk, rOk, pOk, saltOk,
      some_salt, dkOk, rfl⟩, ?_⟩
    have enough : ¬ (scryptPassword.length : Int) - defaultParams.dkLen < 1 := by
      simp only [defaultParams]
      omega
    dsimp only
    rw [if_neg enough]
    have derived : key password salt n r p defaultParams.dkLen = .ok dk := keyOk
    rw [derived]
    exact if_pos rfl

theorem verifyPassword_panic :
    verifyPassword key password scryptPassword = .error .panic ↔ parseScrypt scryptPassword = .error .panic := by
  unfold verifyPassword
  rw [ExceptList.bind_error_iff, or_iff_left_iff_imp]
  rintro ⟨scomp, _, late⟩
  dsimp only at late
  split at late
  · cases late
  · rcases ExceptList.bind_error_iff.mp late with failed | ⟨tmpDK, _, compared⟩
    · cases derived : key password scomp.salt scomp.n scomp.r scomp.p defaultParams.dkLen <;> rw [derived] at failed <;>
        cases failed
    · split at compared <;> cases compared

theorem hasForm_iff (parts : List (List UInt8)) :
    HasForm key password parts ↔ parts.length = 6 ∧ HasForm key password (parts.take 6) := by
  constructor
  · intro form
    have six : parts.length = 6 := by
      obtain ⟨_, _, _, _, _, _, _, _, _, _, rfl, _⟩ := form
      rfl
    rw [List.take_of_length_le (by omega)]
    exact ⟨six, form⟩
  · rintro ⟨six, form⟩
    rwa [List.take_of_length_le (by omega)] at form

end Accepts

section Derived

variable {key : ScryptKey}

abbrev Salt := {salt : List UInt8 // salt.length = defaultParams.dkLen}

theorem colon_free {bytes : List UInt8} : colon ∉ encodeToString bytes := by
  have letters : (PaddedBase64.alphabet.all fun char => char != colon) = true := by decide
  intro member
  rcases PaddedBase64.coded_encodeToString bytes colon member with letter | padding
  · exact absurd (List.all_eq_true.mp letters colon letter) (by decide)
  · exact absurd padding (by decide)

/-- A password is verified against what was derived from it. -/
theorem verify_derive (documented : key.Documented) (password : List UInt8) (salt : Salt) :
    ∃ scryptPassword, derivePassword key password (.ok salt.1) = .ok scryptPassword ∧
      verifyPassword key password scryptPassword = .ok () := by
  obtain ⟨dk, keyOk⟩ := (documented.accepts password salt.1 16384 8 1 64).mpr (by decide)
  let parts := [algorithmName, itoa 16384, itoa 8, itoa 1, encodeToString salt.1, encodeToString dk]
  have derived : derivePassword key password (.ok salt.1) = .ok ([colon].intercalate parts) := by
    have same : key password salt.1 defaultParams.n defaultParams.r defaultParams.p defaultParams.dkLen = .ok dk := keyOk
    unfold derivePassword
    simp only [Except.mapError, bind, Except.bind, same]
    rfl
  have clear : ∀ part ∈ parts, colon ∉ part := by
    simp only [parts, List.forall_mem_cons, List.not_mem_nil, false_imp_iff, implies_true, and_true]
    exact ⟨by decide, by decide, by decide, by decide, colon_free, colon_free⟩
  have split : ([colon].intercalate parts).splitOn colon = parts :=
    List.splitOn_intercalate colon clear (List.cons_ne_nil _ _)
  have some_salt : salt.1 ≠ [] := by
    intro none
    have length := salt.2
    rw [none] at length
    cases length
  refine ⟨_, derived, (verifyPassword_ok documented).mpr ?_⟩
  rw [split, List.take_of_length_le (by exact Nat.le_refl 6)]
  exact ⟨_, _, _, _, _, 16384, 8, 1, salt.1, dk, rfl, by decide, by decide, by decide,
    PaddedBase64.decodeString_encodeToString salt.1, some_salt, PaddedBase64.decodeString_encodeToString dk, keyOk⟩

end Derived

/-- A stored text is verified as it should be exactly when it is wrong before its parts end and, if it has more than six
parts, is no password without those behind the sixth. -/
theorem verifiesExactly_iff {key : ScryptKey} (documented : key.Documented) (password scryptPassword : List UInt8) (salt : Salt) :
    (VerifiesExactly key password scryptPassword ↔ ¬ RunsOff scryptPassword ∧
      (6 < (scryptPassword.splitOn colon).length → ¬ HasForm key password ((scryptPassword.splitOn colon).take 6))) ∧
    ∃ derived, derivePassword key password (.ok salt.1) = .ok derived ∧ verifyPassword key password derived = .ok () := by
  refine ⟨⟨?_, ?_⟩, verify_derive documented password salt⟩
  · rintro ⟨parses, _, accepts⟩
    refine ⟨fun off => parses ((parseScrypt_panic scryptPassword).mpr off), fun many form => ?_⟩
    have six := ((hasForm_iff _).mp (accepts.mp ((verifyPassword_ok documented).mpr form))).1
    omega
  · rintro ⟨on, many⟩
    have parses : parseScrypt scryptPassword ≠ .error .panic := fun panic => on ((parseScrypt_panic scryptPassword).mp panic)
    refine ⟨parses, fun panic => parses (verifyPassword_panic.mp panic), ?_⟩
    rw [verifyPassword_ok documented, hasForm_iff (scryptPassword.splitOn colon)]
    refine ⟨fun form => ⟨?_, form⟩, fun form => form.2⟩
    have few : ¬ 6 < (scryptPassword.splitOn colon).length := fun more => many more form
    obtain ⟨_, _, _, _, _, _, _, _, _, _, parts, _⟩ := form
    have taken := congrArg List.length parts
    simp only [List.length_take, List.length_cons, List.length_nil] at taken
    omega

section Sample

def zeros : Salt := ⟨List.replicate 64 0, by decide⟩

-- The key of the empty password and a salt of zeros, under the default parameters.
def emptyKey : List UInt8 :=
  [225, 205, 104, 227, 91, 26, 108, 45, 128, 251, 1, 18, 63, 177, 114, 169, 132, 120, 174, 238, 122, 235, 166, 159, 45, 55, 192,
    80, 147, 243, 78, 66, 199, 117, 24, 229, 76, 160, 104, 4, 250, 213, 156, 196, 142, 153, 158, 79, 127, 194, 193, 239, 195, 4,
    220, 150, 4, 167, 242, 192, 153, 97, 205, 133]

def sampleKey : ScryptKey := fun password salt n r p keyLen =>
  if ValidParameters n r p then
    if password = [] ∧ salt = zeros.1 ∧ n = 16384 ∧ r = 8 ∧ p = 1 ∧ keyLen = 64 then .ok emptyKey
    else .ok (List.replicate keyLen 0)
  else .error "scrypt: invalid parameters"

theorem sampleKey_documented : sampleKey.Documented := by
  constructor
  · intro password salt n r p keyLen dk derived
    unfold sampleKey at derived
    split at derived
    · split at derived
      · next same =>
        rw [same.2.2.2.2.2, ← Except.ok.inj derived]
        rfl
      · rw [← Except.ok.inj derived, List.length_replicate]
    · cases derived
  · intro password salt n r p keyLen
    unfold sampleKey
    by_cases valid : ValidParameters n r p
    · rw [if_pos valid]
      by_cases real : password = [] ∧ salt = zeros.1 ∧ n = 16384 ∧ r = 8 ∧ p = 1 ∧ keyLen = 64
      · rw [if_pos real]
        exact ⟨fun _ => valid, fun _ => ⟨_, rfl⟩⟩
      · rw [if_neg real]
        exact ⟨fun _ => valid, fun _ => ⟨_, rfl⟩⟩
    · simp [valid]

theorem verifiesExactly_empty :
    (VerifiesExactly sampleKey [] algorithmName ↔ ¬ RunsOff algorithmName ∧ (6 < (algorithmName.splitOn colon).length →
      ¬ HasForm sampleKey [] ((algorithmName.splitOn colon).take 6))) ∧
    ∃ derived, derivePassword sampleKey [] (.ok zeros.1) = .ok derived ∧ verifyPassword sampleKey [] derived = .ok () :=
  verifiesExactly_iff sampleKey_documented [] algorithmName zeros

/-- `SCRYPT` alone has no second part. -/
theorem parts_missing : ¬ VerifiesExactly sampleKey [] algorithmName := fun exact =>
  exact.parses (by decide)

end Sample

end Password
