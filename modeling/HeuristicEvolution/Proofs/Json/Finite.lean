import HeuristicEvolution.Json.Parser
import HeuristicEvolution.Proofs.Decimal.Finite

/-!
# Numbers that are read are finite

The reader of the format has no number for what lies outside the doubles: it refuses a numeral that
is too large, and the values of all others are made by steps that stay among the finite doubles.
This is shown for the members of an object, from the digits of a numeral up to the value of a text.

## Main results

* `Json.finiteNumber_of_numberAt`: a numeral is read as a finite number.
* `Json.valueAt_cases`: what a value at the head of a text can be.
* `Json.finite_of_parseRaw?`: the numbers of an object that is read are finite.
-/

namespace HeuristicEvolution.Json

/-! ## Numerals -/

/-- The significant digits make a number of 64 bits. -/
theorem fitDigits_lt {n count : Nat} {cs : List Char} (h : n < 2 ^ 64) :
    (fitDigits n count cs).1 < 2 ^ 64 := by
  induction cs generalizing n count with
  | nil => exact h
  | cons c cs ih =>
    rw [fitDigits]
    simp only [Nat.pow_eq]
    split
    · next hfits => exact ih hfits
    · exact h

/-- The powers of ten by which a number is divided. -/
theorem isTwoOrMore_powerOfTen {k : Nat} (hpos : 0 < k) (hk : k ≤ 308) :
    Binary.isTwoOrMore (powerOfTen k) = true := by
  have hall : ∀ i < 308, Binary.isTwoOrMore (powerOfTen (i + 1)) = true := by decide +kernel
  obtain ⟨i, rfl⟩ : ∃ i, k = i + 1 := ⟨k - 1, by omega⟩
  exact hall i hk

/-- A number of 64 bits that is brought to its place is finite. -/
theorem isFinite_of_scale? {n : Nat} {e : Int} {x : Float} (hn : n < 2 ^ 64)
    (h : scale? n e = some x) : x.isFinite = true := by
  have hfinite : (Binary.ofNat n).isFinite = true := Binary.isFinite_ofNat hn
  rw [scale?] at h
  simp only at h
  split at h
  · obtain rfl := Option.some.inj h
    exact hfinite
  split at h
  · cases h
  split at h
  · split at h
    · next hproduct =>
      obtain rfl := Option.some.inj h
      exact hproduct
    · cases h
  split at h
  · obtain rfl := Option.some.inj h
    exact Binary.isFinite_div hfinite (isTwoOrMore_powerOfTen (by omega) (by omega))
  split at h
  · obtain rfl := Option.some.inj h
    exact Binary.isFinite_div
      (Binary.isFinite_div hfinite (isTwoOrMore_powerOfTen (by omega) (by omega)))
      (isTwoOrMore_powerOfTen (by omega) (by omega))
  · obtain rfl := Option.some.inj h
    exact Binary.isFinite_ofNat (by omega)

/-- The value is a number, and finite as a double. -/
def FiniteNumber (v : Json) : Prop := ∃ x, v.number? = some x ∧ x.isFinite = true

theorem finiteNumber_float {negative : Bool} {x : Float} (h : x.isFinite = true) :
    FiniteNumber (.float (if negative then -x else x)) := by
  refine ⟨_, rfl, ?_⟩
  split
  · exact Binary.isFinite_neg h
  · exact h

theorem finiteNumber_int {i : Int} (h : i.natAbs < 2 ^ 64) : FiniteNumber (.int i) :=
  ⟨_, rfl, Binary.isFinite_ofInt h⟩

theorem finiteNumber_of_number {negative : Bool} {whole places : List Char} {exponent : Option Int}
    {v : Json} (h : number negative whole places exponent = some v) : v.FiniteNumber := by
  have hwhole : (fitDigits 0 0 whole).1 < 2 ^ 64 := fitDigits_lt (by norm_num)
  have hscaled : ∀ {n : Nat} {e : Int}, n < 2 ^ 64 →
      (scale? n e).map (fun x => .float (if negative then -x else x)) = some v →
      v.FiniteNumber := by
    intro n e hn h
    obtain ⟨x, hx, rfl⟩ := Option.map_eq_some_iff.1 h
    exact finiteNumber_float (isFinite_of_scale? hn hx)
  rw [number] at h
  simp only at h
  split at h
  · split at h
    · exact hscaled hwhole h
    · split at h
      · obtain rfl := Option.some.inj h
        exact finiteNumber_int hwhole
      · split at h
        · obtain rfl := Option.some.inj h
          exact finiteNumber_float (Binary.isFinite_ofNat hwhole)
        · obtain rfl := Option.some.inj h
          exact finiteNumber_int (by rw [Int.natAbs_neg]; exact hwhole)
  · refine hscaled ?_ h
    split <;> exact fitDigits_lt hwhole

theorem finiteNumber_of_numberAt {cs rest : List Char} {v : Json}
    (h : numberAt cs = some (v, rest)) : v.FiniteNumber := by
  have hread : ∀ {negative : Bool} {whole places text : List Char},
      ((exponentAt text).bind fun read =>
        (number negative whole places read.1).map fun v => (v, read.2)) = some (v, rest) →
        v.FiniteNumber := by
    intro negative whole places text h
    obtain ⟨⟨e, tail⟩, -, h⟩ := Option.bind_eq_some_iff.1 h
    obtain ⟨w, hw, h⟩ := Option.map_eq_some_iff.1 h
    obtain ⟨rfl, -⟩ := Prod.mk.inj h
    exact finiteNumber_of_number hw
  unfold numberAt at h
  simp only at h
  repeat' split at h
  all_goals first
    | cases h
    | exact hread h

/-! ## Values -/

/-- How a value begins that is no number. -/
def openers : List Char := ['"', '[', '\x7b', 'n', 't', 'f']

/-- What is read behind an opener: no number; and the members of an object were read as such. -/
structure Opened (fuel : Nat) (cs : List Char) (v : Json) : Prop where
  opener : ∃ c ∈ openers, (skipSpace cs).head? = some c
  number?_eq : v.number? = none
  members : ∀ ms, v = .obj ms → ms = [] ∨ ∃ depth cs rest, membersAt fuel depth cs = some (ms, rest)

theorem opened_of_wordAt {word : String} {u v : Json} {cs text rest : List Char} {fuel : Nat}
    (hu : Opened fuel text u) (h : wordAt word u cs = some (v, rest)) : Opened fuel text v := by
  rw [wordAt] at h
  split at h
  · obtain ⟨rfl, -⟩ := Prod.mk.inj (Option.some.inj h)
    exact hu
  · cases h

/-- **What a value at the head of a text can be**: a number, or something behind an opener. -/
theorem valueAt_cases {fuel depth : Nat} {cs rest : List Char} {v : Json}
    (h : valueAt (fuel + 1) depth cs = some (v, rest)) :
    numberAt (skipSpace cs) = some (v, rest) ∨ Opened fuel cs v := by
  have hplain : ∀ {c : Char} {tail : List Char} {u : Json}, skipSpace cs = c :: tail →
      c ∈ openers → u.number? = none → (∀ ms, u ≠ .obj ms) → Opened fuel cs u :=
    fun hcs hc hu hobj =>
      ⟨⟨_, hc, by rw [hcs, List.head?_cons]⟩, hu, fun ms hms => absurd hms (hobj ms)⟩
  unfold valueAt at h
  split at h
  · cases h
  · next hcs =>
    obtain ⟨⟨s, tail⟩, -, h⟩ := Option.map_eq_some_iff.1 h
    obtain ⟨rfl, -⟩ := Prod.mk.inj h
    exact .inr (hplain hcs (by decide) rfl nofun)
  · next hcs =>
    split at h
    · cases h
    split at h
    · obtain ⟨rfl, -⟩ := Prod.mk.inj (Option.some.inj h)
      exact .inr (hplain hcs (by decide) rfl nofun)
    · obtain ⟨⟨xs, tail⟩, -, h⟩ := Option.map_eq_some_iff.1 h
      obtain ⟨rfl, -⟩ := Prod.mk.inj h
      exact .inr (hplain hcs (by decide) rfl nofun)
  · next hcs =>
    have hopener : ∃ c ∈ openers, (skipSpace cs).head? = some c :=
      ⟨'\x7b', by decide, by rw [hcs, List.head?_cons]⟩
    split at h
    · cases h
    split at h
    · obtain ⟨rfl, -⟩ := Prod.mk.inj (Option.some.inj h)
      exact .inr ⟨hopener, rfl, fun ms hms => .inl (Json.obj.inj hms).symm⟩
    · obtain ⟨⟨ns, tail⟩, hns, h⟩ := Option.map_eq_some_iff.1 h
      obtain ⟨rfl, -⟩ := Prod.mk.inj h
      refine .inr ⟨hopener, rfl, fun ms hms => .inr ?_⟩
      obtain rfl := Json.obj.inj hms
      exact ⟨_, _, _, hns⟩
  · next hcs =>
    split at h
    · exact .inl (hcs ▸ h)
    split at h
    · next hc =>
      exact .inr (opened_of_wordAt (hplain (u := .null) hcs (hc ▸ by decide) rfl nofun) h)
    split at h
    · next hc =>
      exact .inr (opened_of_wordAt (hplain (u := .bool true) hcs (hc ▸ by decide) rfl nofun) h)
    split at h
    · next hc =>
      exact .inr (opened_of_wordAt (hplain (u := .bool false) hcs (hc ▸ by decide) rfl nofun) h)
    · cases h

/-- A value that is finite if it is a number. -/
def Finite (v : Json) : Prop := ∀ x, v.number? = some x → x.isFinite = true

theorem FiniteNumber.finite {v : Json} (h : v.FiniteNumber) : v.Finite := by
  intro x hx
  obtain ⟨y, hy, hfinite⟩ := h
  obtain rfl := Option.some.inj (hy.symm.trans hx)
  exact hfinite

theorem finite_of_valueAt {fuel depth : Nat} {cs rest : List Char} {v : Json}
    (h : valueAt fuel depth cs = some (v, rest)) : v.Finite := by
  cases fuel with
  | zero => exact nomatch h
  | succ fuel =>
    obtain hnumber | hopened := valueAt_cases h
    · exact (finiteNumber_of_numberAt hnumber).finite
    · intro x hx
      cases hopened.number?_eq.symm.trans hx

/-- **The numbers of members that are read are finite as doubles.** -/
theorem finite_of_membersAt {fuel depth : Nat} {cs rest : List Char} {ms : List (String × Json)}
    (h : membersAt fuel depth cs = some (ms, rest)) : ∀ m ∈ ms, m.2.Finite := by
  induction fuel generalizing cs rest ms with
  | zero => exact nomatch h
  | succ fuel ih =>
    unfold membersAt at h
    split at h
    · split at h
      · cases h
      split at h
      · split at h
        · cases h
        next v _ hv =>
          split at h
          · obtain ⟨⟨ns, tail⟩, hns, h⟩ := Option.map_eq_some_iff.1 h
            obtain ⟨rfl, -⟩ := Prod.mk.inj h
            exact List.forall_mem_cons.2 ⟨finite_of_valueAt hv, ih hns⟩
          · obtain ⟨rfl, -⟩ := Prod.mk.inj (Option.some.inj h)
            exact List.forall_mem_singleton.2 (finite_of_valueAt hv)
          · cases h
      · cases h
    · cases h

/-- **The numbers of an object that is read are finite as doubles.** -/
theorem finite_of_parseRaw? {s : String} {ms : List (String × Json)}
    (h : parseRaw? s = some (.obj ms)) : ∀ m ∈ ms, m.2.Finite := by
  unfold parseRaw? at h
  simp only at h
  split at h
  · next v rest hv =>
    split at h
    · obtain rfl := Option.some.inj h
      obtain hnumber | hopened := valueAt_cases hv
      · obtain ⟨x, hx, -⟩ := finiteNumber_of_numberAt hnumber
        cases hx
      obtain rfl | ⟨depth, cs, rest, hread⟩ := hopened.members ms rfl
      · exact fun m hm => nomatch hm
      · exact finite_of_membersAt hread
    · cases h
  · cases h

end HeuristicEvolution.Json
