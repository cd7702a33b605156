import ShaderStyle.Proofs.Glsl.Spelling

/-! Identifiers that are made from arbitrary names, and the names of vector types. -/
namespace ShaderStyle.Glsl

/-- Identifiers are made of the letters and digits of ASCII and of underscores. -/
theorem isIdentChar_iff {c : Char} : isIdentChar c = true ↔ c.isAlphanum = true ∨ c = '_' := by
  have hupper : c.isUpper = ('A' ≤ c && c ≤ 'Z') := Bool.decide_and _ _
  have hident : isIdentChar c = (c.isLower || c.isUpper || c.isDigit || c == '_') := by
    rw [hupper]
    rfl
  have halphanum : c.isAlphanum = (c.isUpper || c.isLower || c.isDigit) := rfl
  rw [hident, halphanum, Bool.or_comm c.isUpper, Bool.or_eq_true _ (c == '_'), beq_iff_eq]

theorem exists_digitChar_of_mem_toDigits {b n : Nat} (hb : 1 < b) {c : Char}
    (h : c ∈ Nat.toDigits b n) : ∃ k, k < b ∧ c = Nat.digitChar k := by
  induction n using Nat.strongRecOn with
  | ind n ih =>
    rw [Nat.toDigits_eq_if hb] at h
    split at h
    · next hn => exact ⟨n, hn, List.mem_singleton.mp h⟩
    · next hn =>
      rcases List.mem_append.mp h with h | h
      · exact ih (n / b) (Nat.div_lt_self (by omega) hb) h
      · exact ⟨n % b, Nat.mod_lt n (by omega), List.mem_singleton.mp h⟩

theorem isIdentChar_of_mem_mangleChar {c d : Char} (h : d ∈ mangleChar c) :
    isIdentChar d = true := by
  have hhex : ∀ k, k < 16 → isIdentChar (Nat.digitChar k).toUpper = true := by decide
  unfold mangleChar at h
  split at h
  · next hc =>
    obtain rfl := List.mem_singleton.mp h
    exact hc
  · rcases List.mem_cons.mp h with rfl | h
    · rfl
    rcases List.mem_cons.mp h with rfl | h
    · rfl
    obtain ⟨e, he, rfl⟩ := List.mem_map.mp h
    obtain ⟨k, hk, rfl⟩ := exists_digitChar_of_mem_toDigits (by decide) he
    exact hhex k hk

theorem isIdentChar_of_mem_mangle {name : String} {c : Char} (h : c ∈ (mangle name).toList) :
    isIdentChar c = true := by
  rw [mangle, String.toList_ofList, List.mem_flatMap] at h
  obtain ⟨d, -, hc⟩ := h
  exact isIdentChar_of_mem_mangleChar hc

theorem mangle_eq_self {name : String} (h : ∀ c ∈ name.toList, isIdentChar c = true) :
    mangle name = name := by
  have hsame : name.toList.flatMap mangleChar = name.toList.flatMap fun c => [c] := by
    refine List.flatMap_congr fun c hc => ?_
    rw [mangleChar, if_pos (h c hc)]
  rw [mangle, hsame, List.flatMap_singleton', String.ofList_toList]

/-- A tail of letters and digits comes from one name only: what is replaced leaves an
underscore. -/
theorem mangle_eq_iff {name tail : String} (plain : tail.toList.all Char.isAlphanum = true) :
    mangle name = tail ↔ name = tail := by
  have hplain := List.all_eq_true.mp plain
  have hident : ∀ c ∈ tail.toList, isIdentChar c = true := fun c hc =>
    isIdentChar_iff.mpr (Or.inl (hplain c hc))
  constructor
  · intro hmangle
    rw [← hmangle]
    refine (mangle_eq_self fun c hc => ?_).symm
    by_contra hreplaced
    have hunderscore : '_' ∈ (mangle name).toList := by
      rw [mangle, String.toList_ofList, List.mem_flatMap]
      exact ⟨c, hc, by rw [mangleChar, if_neg hreplaced]; exact List.mem_cons_self⟩
    rw [hmangle] at hunderscore
    exact absurd (hplain '_' hunderscore) (by decide)
  · rintro rfl
    exact mangle_eq_self hident

/-- A name continued by a mangled one is a name. -/
theorem isName_append_mangle {start : String} (h : Token.isName start.toList = true)
    (name : String) : Token.isName (start ++ mangle name).toList = true := by
  rw [String.toList_append]
  cases hs : start.toList with
  | nil =>
    rw [hs] at h
    cases h
  | cons first rest =>
    rw [hs] at h
    obtain ⟨hf, hd, hrest⟩ := Token.isName_cons.mp h
    refine Token.isName_cons.mpr ⟨hf, hd, fun c hc => ?_⟩
    rcases List.mem_append.mp hc with hc | hc
    · exact hrest c hc
    · exact isIdentChar_of_mem_mangle hc

theorem isName_attributeName (name : String) : Token.isName (attributeName name).toList = true :=
  isName_append_mangle (by decide) name

theorem isName_varyingName (name : String) : Token.isName (varyingName name).toList = true :=
  isName_append_mangle (by decide) name

theorem isName_uniformName (name : String) : Token.isName (uniformName name).toList = true :=
  isName_append_mangle (by decide) name

theorem isName_vector (n : Nat) : Token.isName ("vec" ++ toString n).toList = true := by
  rw [String.toList_append, Nat.toString_eq_ofList_toDigits, String.toList_ofList]
  refine Token.isName_cons.mpr ⟨rfl, rfl, fun c hc => ?_⟩
  have hcases : c = 'e' ∨ c = 'c' ∨ c ∈ Nat.toDigits 10 n := by simpa using hc
  rcases hcases with rfl | rfl | hdigit
  · rfl
  · rfl
  · exact Token.isIdentChar_of_isDigit
      (Nat.isDigit_of_mem_toDigits (by decide) (by decide) hdigit)

/-- Identifiers of the form `x_…` are no literals of booleans. -/
theorem Tree.word_eq_name {ident : String} (h : ident.toList[1]? = some '_') :
    Tree.word ident = .name ident := by
  have htrue : ident ≠ "true" := by
    rintro rfl
    exact absurd h (by decide)
  have hfalse : ident ≠ "false" := by
    rintro rfl
    exact absurd h (by decide)
  rw [Tree.word, if_neg htrue, if_neg hfalse]

theorem Spells.ident {ident : String} (h : Token.isName ident.toList = true)
    (hword : ident.toList[1]? = some '_') : Spells 0 ident (.name ident) := by
  have hspells := Spells.word h
  rwa [Tree.word_eq_name hword] at hspells

theorem toList_attributeName (name : String) :
    (attributeName name).toList = 'a' :: '_' :: (mangle name).toList := by
  rw [attributeName, String.toList_append]
  rfl

theorem toList_varyingName (name : String) :
    (varyingName name).toList = 'v' :: '_' :: (mangle name).toList := by
  rw [varyingName, String.toList_append]
  rfl

theorem toList_uniformName (name : String) :
    (uniformName name).toList = 'u' :: '_' :: 'v' :: 'a' :: 'r' :: '_' :: (mangle name).toList := by
  rw [uniformName, String.toList_append]
  rfl

theorem getElem_attributeName (name : String) : (attributeName name).toList[1]? = some '_' := by
  rw [toList_attributeName]
  rfl

theorem getElem_varyingName (name : String) : (varyingName name).toList[1]? = some '_' := by
  rw [toList_varyingName]
  rfl

theorem getElem_uniformName (name : String) : (uniformName name).toList[1]? = some '_' := by
  rw [toList_uniformName]
  rfl

theorem attributeName_ne_uniformName (name other : String) :
    attributeName name ≠ uniformName other := by
  intro h
  have hlist := congrArg String.toList h
  rw [toList_attributeName, toList_uniformName] at hlist
  cases hlist

theorem varyingName_ne_uniformName (name other : String) :
    varyingName name ≠ uniformName other := by
  intro h
  have hlist := congrArg String.toList h
  rw [toList_varyingName, toList_uniformName] at hlist
  cases hlist

/-- The uniforms that the renderer provides. -/
def providedUniforms : List String := ["u_time", "u_zoom", "u_resolution"]

theorem notMem_provided {ident : String}
    (h : ident.toList[0]? ≠ some 'u' ∨ ident.toList[2]? = some 'v') : ident ∉ providedUniforms := by
  have hprovided : ∀ p ∈ providedUniforms,
      p.toList[0]? = some 'u' ∧ p.toList[2]? ≠ some 'v' := by decide
  intro hmem
  obtain ⟨hfirst, hthird⟩ := hprovided ident hmem
  rcases h with h | h
  · exact h hfirst
  · exact hthird h

theorem attributeName_notMem_provided (name : String) : attributeName name ∉ providedUniforms :=
  notMem_provided (Or.inl (by rw [toList_attributeName]; simp))

theorem varyingName_notMem_provided (name : String) : varyingName name ∉ providedUniforms :=
  notMem_provided (Or.inl (by rw [toList_varyingName]; simp))

theorem uniformName_notMem_provided (name : String) : uniformName name ∉ providedUniforms :=
  notMem_provided (Or.inr (by rw [toList_uniformName]; rfl))

end ShaderStyle.Glsl
