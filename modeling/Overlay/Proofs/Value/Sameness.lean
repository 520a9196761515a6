import Overlay.Proofs.Fields
import Mathlib.Data.List.Forall2

/-!
# Sameness

Two values are the same when they show the same content.  Sameness is symmetric and transitive on
the values whose mappings have pairwise different keys, which is what makes a mapping one: a key of
such a mapping has one partner in a mapping that is the same.

Sameness is not reflexive, as not-a-number is no number's equal.

## Main definitions
- `Value.isProper`: values whose mappings have pairwise different keys, at every depth
- `Value.Alike`: the ways for two values to be the same
- `Fields.Hashed`: mappings whose keys may be keys

## Main statements
- `Value.same_symm`, `Value.same_trans`: sameness of proper values
- `Fields.find?_insert`: what is looked up under any key after one has been set
-/

namespace Overlay

/-- What stands in the second of two related lists is related to something in the first one. -/
theorem exists_mem_of_forall₂ {α β : Type} {R : α → β → Prop} {as : List α} {bs : List β}
    (h : List.Forall₂ R as bs) : ∀ b ∈ bs, ∃ a ∈ as, R a b := by
  induction h with
  | nil => exact fun _ hb => nomatch hb
  | cons hab _ ih =>
    refine List.forall_mem_cons.mpr ⟨⟨_, List.mem_cons_self, hab⟩, fun b hb => ?_⟩
    obtain ⟨a, ha, hrel⟩ := ih b hb
    exact ⟨a, List.mem_cons_of_mem _ ha, hrel⟩

/-! ## Section 1: Proper values -/

namespace Value

mutual

/-- Whether all mappings inside of a value have pairwise different keys. -/
def isProper : Value → Bool
  | .list items => areProper items
  | .tuple items => areProper items
  | .dict entries => decide (Fields.Distinct entries) && areProperEntries entries
  | _ => true

/-- Whether all of the values are proper. -/
def areProper : List Value → Bool
  | [] => true
  | v :: r => isProper v && areProper r

/-- Whether all keys and values of a mapping are proper. -/
def areProperEntries : List (Value × Value) → Bool
  | [] => true
  | (k, v) :: r => isProper k && isProper v && areProperEntries r

end

theorem areProper_iff {items : List Value} :
    areProper items = true ↔ ∀ v ∈ items, v.isProper = true := by
  induction items with
  | nil => simp [areProper]
  | cons v r ih => simp only [areProper, Bool.and_eq_true, ih, List.forall_mem_cons]

theorem areProperEntries_iff {fs : Fields} :
    areProperEntries fs = true ↔ ∀ e ∈ fs, e.1.isProper = true ∧ e.2.isProper = true := by
  induction fs with
  | nil => simp [areProperEntries]
  | cons e r ih => simp only [areProperEntries, Bool.and_eq_true, ih, List.forall_mem_cons]

theorem isProper_dict {fs : Fields} :
    (Value.dict fs).isProper = true
      ↔ Fields.Distinct fs ∧ ∀ e ∈ fs, e.1.isProper = true ∧ e.2.isProper = true := by
  rw [isProper, Bool.and_eq_true, decide_eq_true_eq, areProperEntries_iff]

/-! ## Section 2: Scalars -/

/-- Whether a value is only the same as itself: it is absent, a text or a date. -/
def isWord : Value → Bool
  | .none => true
  | .text _ => true
  | .date _ => true
  | _ => false

/-- The place of a number on the line. -/
def place? (v : Value) : Option Double.Place :=
  v.number?.bind Number.place?

theorem same_number_iff {m n : Number} :
    m.same n = true ↔ ∃ p, m.place? = some p ∧ n.place? = some p := by
  unfold Number.same
  cases m.place? with
  | none => simp
  | some p =>
    cases n.place? with
    | none => simp
    | some q => simp [eq_comm]

theorem sameScalar_of_isWord {a : Value} (h : a.isWord = true) (b : Value) :
    sameScalar a b = true ↔ a = b := by
  cases a with
  | none => cases b <;> simp [sameScalar, number?]
  | text s => cases b <;> simp [sameScalar, number?]
  | date d => cases b <;> simp [sameScalar, number?]
  | _ => cases h

theorem none_same {v : Value} : Value.none.same v = true ↔ v = .none := by
  rw [show Value.none.same v = sameScalar .none v from rfl, sameScalar_of_isWord rfl, eq_comm]

theorem sameScalar_of_not_isWord {a : Value} (h : a.isWord = false) (b : Value) :
    sameScalar a b = true ↔ ∃ p, a.place? = some p ∧ b.place? = some p := by
  have hnumbers : sameScalar a b = (a.number?.bind fun m => b.number?.map m.same).getD false := by
    cases a with
    | none | text | date => cases h
    | _ => cases b <;> rfl
  rw [hnumbers, place?, place?]
  cases a.number? with
  | none => simp
  | some m =>
    cases b.number? with
    | none => simp
    | some n => exact same_number_iff

theorem place?_of_isWord {a : Value} (h : a.isWord = true) : a.place? = .none := by
  cases a with
  | none | text | date => rfl
  | _ => cases h

theorem sameScalar_symm {a b : Value} (h : sameScalar a b = true) : sameScalar b a = true := by
  cases ha : a.isWord with
  | true =>
    obtain rfl := (sameScalar_of_isWord ha b).mp h
    exact h
  | false =>
    obtain ⟨p, hp, hq⟩ := (sameScalar_of_not_isWord ha b).mp h
    have hb : b.isWord = false := by
      cases hb : b.isWord with
      | false => rfl
      | true => cases (place?_of_isWord hb).symm.trans hq
    exact (sameScalar_of_not_isWord hb a).mpr ⟨p, hq, hp⟩

theorem sameScalar_trans {a b c : Value} (hab : sameScalar a b = true)
    (hbc : sameScalar b c = true) : sameScalar a c = true := by
  cases ha : a.isWord with
  | true =>
    obtain rfl := (sameScalar_of_isWord ha b).mp hab
    exact hbc
  | false =>
    obtain ⟨p, hp, hq⟩ := (sameScalar_of_not_isWord ha b).mp hab
    have hb : b.isWord = false := by
      cases hb : b.isWord with
      | false => rfl
      | true => cases (place?_of_isWord hb).symm.trans hq
    obtain ⟨q, hq', hr⟩ := (sameScalar_of_not_isWord hb c).mp hbc
    obtain rfl := Option.some.inj (hq.symm.trans hq')
    exact (sameScalar_of_not_isWord ha c).mpr ⟨p, hp, hr⟩

/-- Whether a value is a container of others. -/
def isContainer : Value → Bool
  | .list _ => true
  | .tuple _ => true
  | .dict _ => true
  | _ => false

theorem same_of_scalar {a : Value} (h : a.isContainer = false) (b : Value) :
    a.same b = sameScalar a b := by
  cases a with
  | list | tuple | dict => cases h
  | _ => rw [same] <;> (intros; contradiction)

/-- A container is never the same as a scalar. -/
theorem isContainer_eq_of_same {a b : Value} (h : a.same b = true) :
    a.isContainer = b.isContainer := by
  cases ha : a.isContainer with
  | true =>
    cases a with
    | list | tuple | dict => cases b <;> first | rfl | simp [same] at h
    | _ => cases ha
  | false =>
    rw [same_of_scalar ha] at h
    cases b with
    | list | tuple | dict =>
      have hback := sameScalar_symm h
      simp [sameScalar, number?] at hback
    | _ => rfl

/-! ## Section 3: Containers -/

theorem sameItems_iff {xs ys : List Value} :
    sameItems xs ys = true ↔ List.Forall₂ (fun x y => x.same y = true) xs ys := by
  induction xs generalizing ys with
  | nil => cases ys <;> simp [sameItems]
  | cons x xs ih => cases ys <;> simp [sameItems, ih]

/-- Two entries with the same key and the same value. -/
def SameEntry (e d : Value × Value) : Prop :=
  e.1.same d.1 = true ∧ e.2.same d.2 = true

/-- Each entry has a partner: the first one with the same key, which has the same value. -/
theorem sameEntries_iff {xs ys : Fields} :
    sameEntries xs ys = true ↔ ∀ e ∈ xs, ∃ d, List.find? (fun d => e.1.same d.1) ys = some d
      ∧ e.2.same d.2 = true := by
  induction xs with
  | nil => simp [sameEntries]
  | cons e r ih =>
    rw [List.forall_mem_cons, sameEntries, Bool.and_eq_true, ih]
    cases List.find? (fun d => e.1.same d.1) ys with
    | none => simp
    | some d => simp

/-- Where different items have different partners and there are not more partners than items, each
partner is one of an item. -/
theorem exists_partner {α β : Type} {r : α → β → Prop} {xs : List α} {ys : List β}
    (hlength : ys.length ≤ xs.length) (hdiffer : xs.Pairwise fun a b => ∀ d, r a d → ¬r b d)
    (h : ∀ a ∈ xs, ∃ d ∈ ys, r a d) : ∀ d ∈ ys, ∃ a ∈ xs, r a d := by
  induction xs generalizing ys with
  | nil =>
    intro d hd
    rw [List.eq_nil_of_length_eq_zero (Nat.le_zero.mp hlength)] at hd
    cases hd
  | cons a rest ih =>
    obtain ⟨hhead, htail⟩ := List.pairwise_cons.mp hdiffer
    obtain ⟨⟨d, hd, had⟩, hrest⟩ := List.forall_mem_cons.mp h
    -- the partner of the first item is taken out, as no other item has it
    obtain ⟨front, back, rfl⟩ := List.append_of_mem hd
    have hothers : ∀ b ∈ rest, ∃ c ∈ front ++ back, r b c := by
      intro b hb
      obtain ⟨c, hc, hbc⟩ := hrest b hb
      have hne : c ≠ d := by
        rintro rfl
        exact hhead b hb c had hbc
      refine ⟨c, ?_, hbc⟩
      simpa [hne] using hc
    have hshort : (front ++ back).length ≤ rest.length := by
      simp only [List.length_append, List.length_cons] at hlength ⊢
      omega
    intro c hc
    by_cases hcd : c = d
    · exact ⟨a, List.mem_cons_self, hcd ▸ had⟩
    · obtain ⟨b, hb, hbc⟩ := ih hshort htail hothers c (by simpa [hcd] using hc)
      exact ⟨b, List.mem_cons_of_mem a hb, hbc⟩

/-! ## Section 4: Symmetry and transitivity -/

/-- Sameness is symmetric and transitive on some values. -/
structure Regular (q : Value → Prop) : Prop where
  symm : ∀ {a b}, q a → q b → a.same b = true → b.same a = true
  trans : ∀ {a b c}, q a → q b → q c → a.same b = true → b.same c = true → a.same c = true

namespace Regular

variable {q : Value → Prop} (hq : Regular q) {xs ys zs : Fields}
  (hx : ∀ e ∈ xs, q e.1 ∧ q e.2) (hy : ∀ e ∈ ys, q e.1 ∧ q e.2) (hz : ∀ e ∈ zs, q e.1 ∧ q e.2)

include hq

include hx in
/-- In a mapping, the first entry with a key is the only one. -/
theorem find?_eq (hd : Fields.Distinct xs) {key : Value} (hkey : q key) {e : Value × Value}
    (he : e ∈ xs) (hsame : key.same e.1 = true) :
    List.find? (fun d => key.same d.1) xs = some e := by
  induction xs with
  | nil => cases he
  | cons d r ih =>
    obtain ⟨hhead, htail⟩ := List.pairwise_cons.mp hd
    rw [List.forall_mem_cons] at hx
    rcases List.mem_cons.mp he with rfl | hr
    · rw [List.find?_cons, hsame]
    · have hdiffers : key.same d.1 = false := by
        cases hfirst : key.same d.1 with
        | false => rfl
        | true =>
          have hback := hq.symm hkey hx.1.1 hfirst
          cases (hhead e hr).symm.trans (hq.trans hx.1.1 hkey (hx.2 e hr).1 hback hsame)
      rw [List.find?_cons, hdiffers]
      exact ih hx.2 htail hr

include hx hy in
theorem sameEntries_symm (hdx : Fields.Distinct xs)
    (hlength : xs.length = ys.length) (h : sameEntries xs ys = true) :
    sameEntries ys xs = true := by
  rw [sameEntries_iff] at h ⊢
  -- two entries with one partner would have the same key
  have hdiffer : xs.Pairwise fun e e' => ∀ d, d ∈ ys ∧ SameEntry e d → ¬(d ∈ ys ∧ SameEntry e' d) := by
    refine hdx.imp_of_mem fun {e e'} he he' hkeys d hd hd' => ?_
    have hback := hq.symm (hx e' he').1 (hy d hd.1).1 hd'.2.1
    cases hkeys.symm.trans (hq.trans (hx e he).1 (hy d hd.1).1 (hx e' he').1 hd.2.1 hback)
  have hpartners : ∀ e ∈ xs, ∃ d ∈ ys, d ∈ ys ∧ SameEntry e d := by
    intro e he
    obtain ⟨d, hfind, hvalue⟩ := h e he
    have hd := List.mem_of_find?_eq_some hfind
    exact ⟨d, hd, hd, List.find?_some (p := fun d : Value × Value => e.1.same d.1) hfind, hvalue⟩
  intro d hd
  obtain ⟨e, he, -, hkey, hvalue⟩ := exists_partner (Nat.le_of_eq hlength.symm) hdiffer hpartners d hd
  refine ⟨e, hq.find?_eq hx hdx (hy d hd).1 he (hq.symm (hx e he).1 (hy d hd).1 hkey), ?_⟩
  exact hq.symm (hx e he).2 (hy d hd).2 hvalue

include hx hy hz in
theorem sameEntries_trans (hdz : Fields.Distinct zs) (hxy : sameEntries xs ys = true)
    (hyz : sameEntries ys zs = true) : sameEntries xs zs = true := by
  rw [sameEntries_iff] at hxy hyz ⊢
  intro e he
  obtain ⟨d, hfind, hvalue⟩ := hxy e he
  have hd := List.mem_of_find?_eq_some hfind
  have hkey : e.1.same d.1 = true :=
    List.find?_some (p := fun d : Value × Value => e.1.same d.1) hfind
  obtain ⟨c, hfind', hvalue'⟩ := hyz d hd
  have hc := List.mem_of_find?_eq_some hfind'
  have hkey' : d.1.same c.1 = true :=
    List.find?_some (p := fun c : Value × Value => d.1.same c.1) hfind'
  refine ⟨c, hq.find?_eq hz hdz (hx e he).1 hc ?_, ?_⟩
  · exact hq.trans (hx e he).1 (hy d hd).1 (hz c hc).1 hkey hkey'
  · exact hq.trans (hx e he).2 (hy d hd).2 (hz c hc).2 hvalue hvalue'

end Regular

/-- The ways for two values to be the same. -/
inductive Alike : Value → Value → Prop
  | scalar {a b : Value} (ha : a.isContainer = false) (hb : b.isContainer = false)
      (h : sameScalar a b = true) : Alike a b
  | list {xs ys : List Value} (h : List.Forall₂ (fun x y => x.same y = true) xs ys) :
      Alike (.list xs) (.list ys)
  | tuple {xs ys : List Value} (h : List.Forall₂ (fun x y => x.same y = true) xs ys) :
      Alike (.tuple xs) (.tuple ys)
  | dict {xs ys : Fields} (hlength : xs.length = ys.length) (h : sameEntries xs ys = true) :
      Alike (.dict xs) (.dict ys)

theorem same_iff_alike {a b : Value} : a.same b = true ↔ Alike a b := by
  constructor
  · intro h
    cases hcontainer : a.isContainer with
    | false =>
      have hb := (isContainer_eq_of_same h).symm.trans hcontainer
      exact .scalar hcontainer hb (same_of_scalar hcontainer b ▸ h)
    | true =>
      cases a with
      | list xs =>
        cases b with
        | list ys => exact .list (sameItems_iff.mp (by rwa [same] at h))
        | _ => simp [same] at h
      | tuple xs =>
        cases b with
        | tuple ys => exact .tuple (sameItems_iff.mp (by rwa [same] at h))
        | _ => simp [same] at h
      | dict xs =>
        cases b with
        | dict ys =>
          rw [same, Bool.and_eq_true, beq_iff_eq] at h
          exact .dict h.1 h.2
        | _ => simp [same] at h
      | _ => cases hcontainer
  · intro h
    cases h with
    | scalar ha _ h => rwa [same_of_scalar ha]
    | list h => rwa [same, sameItems_iff]
    | tuple h => rwa [same, sameItems_iff]
    | dict hlength h => rw [same, Bool.and_eq_true, beq_iff_eq]; exact ⟨hlength, h⟩

/-- Proper values below a size. -/
def ProperBelow (n : Nat) (v : Value) : Prop :=
  v.isProper = true ∧ sizeOf v < n

namespace ProperBelow

variable {n : Nat} {items : List Value} {fs : Fields}

theorem of_mem (h : areProper items = true) (hsize : sizeOf items < n) :
    ∀ v ∈ items, ProperBelow n v :=
  fun v hv => ⟨areProper_iff.mp h v hv, Nat.lt_trans (List.sizeOf_lt_of_mem hv) hsize⟩

theorem of_mem_list (h : ProperBelow (n + 1) (.list items)) : ∀ v ∈ items, ProperBelow n v := by
  obtain ⟨hproper, hsize⟩ := h
  rw [Value.list.sizeOf_spec] at hsize
  exact of_mem hproper (by omega)

theorem of_mem_tuple (h : ProperBelow (n + 1) (.tuple items)) : ∀ v ∈ items, ProperBelow n v := by
  obtain ⟨hproper, hsize⟩ := h
  rw [Value.tuple.sizeOf_spec] at hsize
  exact of_mem hproper (by omega)

theorem of_mem_dict (h : ProperBelow (n + 1) (.dict fs)) :
    ∀ e ∈ fs, ProperBelow n e.1 ∧ ProperBelow n e.2 := by
  intro e he
  obtain ⟨hproper, hsize⟩ := h
  have hparts := (isProper_dict.mp hproper).2 e he
  have hlt := List.sizeOf_lt_of_mem he
  have hentry : sizeOf e = 1 + sizeOf e.1 + sizeOf e.2 := by
    obtain ⟨k, v⟩ := e
    exact Prod.mk.sizeOf_spec k v
  rw [Value.dict.sizeOf_spec] at hsize
  exact ⟨⟨hparts.1, by omega⟩, ⟨hparts.2, by omega⟩⟩

end ProperBelow

theorem forall₂_symm {q : Value → Prop} (hq : Regular q) {xs ys : List Value}
    (hx : ∀ v ∈ xs, q v) (hy : ∀ v ∈ ys, q v)
    (h : List.Forall₂ (fun x y => x.same y = true) xs ys) :
    List.Forall₂ (fun x y => x.same y = true) ys xs := by
  induction h with
  | nil => exact .nil
  | cons hxy _ ih =>
    rw [List.forall_mem_cons] at hx hy
    exact .cons (hq.symm hx.1 hy.1 hxy) (ih hx.2 hy.2)

theorem forall₂_trans {q : Value → Prop} (hq : Regular q) {xs ys zs : List Value}
    (hx : ∀ v ∈ xs, q v) (hy : ∀ v ∈ ys, q v) (hz : ∀ v ∈ zs, q v)
    (hxy : List.Forall₂ (fun x y => x.same y = true) xs ys)
    (hyz : List.Forall₂ (fun x y => x.same y = true) ys zs) :
    List.Forall₂ (fun x y => x.same y = true) xs zs := by
  induction hxy generalizing zs with
  | nil => exact hyz
  | cons hhead _ ih =>
    cases hyz with
    | cons hhead' htail' =>
      rw [List.forall_mem_cons] at hx hy hz
      exact .cons (hq.trans hx.1 hy.1 hz.1 hhead hhead') (ih hx.2 hy.2 hz.2 htail')

/-- Containers are compared by what they contain, which is smaller. -/
theorem regular_properBelow (n : Nat) : Regular (ProperBelow n) := by
  induction n with
  | zero =>
    exact ⟨fun ha => absurd ha.2 (Nat.not_lt_zero _), fun ha => absurd ha.2 (Nat.not_lt_zero _)⟩
  | succ n ih =>
    constructor
    · intro a b ha hb hab
      rw [same_iff_alike] at hab ⊢
      cases hab with
      | scalar hca hcb h => exact .scalar hcb hca (sameScalar_symm h)
      | list h => exact .list (forall₂_symm ih ha.of_mem_list hb.of_mem_list h)
      | tuple h => exact .tuple (forall₂_symm ih ha.of_mem_tuple hb.of_mem_tuple h)
      | dict hlength h =>
        have hdistinct := (isProper_dict.mp ha.1).1
        exact .dict hlength.symm
          (ih.sameEntries_symm ha.of_mem_dict hb.of_mem_dict hdistinct hlength h)
    · intro a b c ha hb hc hab hbc
      rw [same_iff_alike] at hab hbc ⊢
      cases hab with
      | scalar hca hcb h =>
        cases hbc with
        | scalar _ hcc h' => exact .scalar hca hcc (sameScalar_trans h h')
        | list | tuple | dict => cases hcb
      | list h =>
        cases hbc with
        | scalar hcb => cases hcb
        | list h' =>
          exact .list (forall₂_trans ih ha.of_mem_list hb.of_mem_list hc.of_mem_list h h')
      | tuple h =>
        cases hbc with
        | scalar hcb => cases hcb
        | tuple h' =>
          exact .tuple (forall₂_trans ih ha.of_mem_tuple hb.of_mem_tuple hc.of_mem_tuple h h')
      | dict hlength h =>
        cases hbc with
        | scalar hcb => cases hcb
        | dict hlength' h' =>
          have hdistinct := (isProper_dict.mp hc.1).1
          exact .dict (hlength.trans hlength')
            (ih.sameEntries_trans ha.of_mem_dict hb.of_mem_dict hc.of_mem_dict hdistinct h h')

theorem same_symm {a b : Value} (ha : a.isProper = true) (hb : b.isProper = true)
    (h : a.same b = true) : b.same a = true :=
  (regular_properBelow (sizeOf a + sizeOf b + 1)).symm ⟨ha, by omega⟩ ⟨hb, by omega⟩ h

theorem same_trans {a b c : Value} (ha : a.isProper = true) (hb : b.isProper = true)
    (hc : c.isProper = true) (hab : a.same b = true) (hbc : b.same c = true) : a.same c = true :=
  (regular_properBelow (sizeOf a + sizeOf b + sizeOf c + 1)).trans ⟨ha, by omega⟩ ⟨hb, by omega⟩
    ⟨hc, by omega⟩ hab hbc

theorem same_comm {a b : Value} (ha : a.isProper = true) (hb : b.isProper = true) :
    a.same b = b.same a :=
  Bool.eq_iff_iff.mpr ⟨same_symm ha hb, same_symm hb ha⟩

theorem proper_of_get? {fs : Fields} (h : (Value.dict fs).isProper = true) {name : String} {v : Value}
    (hv : Fields.get? fs name = some v) : v.isProper = true :=
  ((isProper_dict.mp h).2 _ (Fields.mem_of_get? hv)).2

theorem proper_of_field {v w : Value} (h : v.isProper = true) {name : String}
    (hw : v.field name = .ok w) : w.isProper = true := by
  cases v with
  | dict fs => exact proper_of_get? h (orFault_eq_ok.mp hw)
  | _ => cases hw

/-- Mappings that are the same have the same fields. -/
theorem exists_same_field {a b v : Value} {name : String} (h : a.same b = true)
    (hv : a.field name = .ok v) : ∃ w, b.field name = .ok w ∧ v.same w = true := by
  cases a with
  | dict xs =>
    cases same_iff_alike.mp h with
    | scalar ha => cases ha
    | @dict _ ys _ hentries =>
      obtain ⟨d, hfind, hsame⟩ :=
        sameEntries_iff.mp hentries _ (Fields.mem_of_get? (orFault_eq_ok.mp hv))
      have hfind' : List.find? (fun d => d.1.same (.text name)) ys = some d := by
        rw [← hfind]
        congr 1
        funext d
        rw [Bool.eq_iff_iff, same_text, text_same]
      exact ⟨d.2, Fields.field_dict (by rw [Fields.get?, Fields.find?, hfind']; rfl), hsame⟩
  | _ => cases hv

/-- A changed mapping is proper, if the mapping and the changes are. -/
theorem isProper_merge {fs updates : Fields} (h : (Value.dict fs).isProper = true)
    (hu : (Value.dict updates).isProper = true) :
    (Value.dict (Fields.merge fs updates)).isProper = true := by
  refine isProper_dict.mpr ⟨(isProper_dict.mp h).1.merge updates, ?_⟩
  refine Fields.merge_induction (q := fun m => ∀ e ∈ m, e.1.isProper = true ∧ e.2.isProper = true)
    ?_ (isProper_dict.mp h).2
  intro e he m hm d hd
  have hnew := (isProper_dict.mp hu).2 e he
  rcases Fields.mem_insert hd with hd | rfl | ⟨hv, -, w, hw⟩
  · exact hm d hd
  · exact hnew
  · exact ⟨(hm _ hw).1, hv ▸ hnew.2⟩

/-! ## Section 5: Keys -/

mutual

/-- There are no mappings inside of a key. -/
theorem isProper_of_isKey : ∀ v : Value, v.isKey = true → v.isProper = true
  | .tuple items, h => by
    rw [isKey] at h
    rw [isProper]
    exact areProper_of_areKeys items h
  | .none, _ => rfl
  | .bool _, _ => rfl
  | .int _, _ => rfl
  | .float _, _ => rfl
  | .text _, _ => rfl
  | .date _, _ => rfl

theorem areProper_of_areKeys : ∀ items : List Value, areKeys items = true → areProper items = true
  | [], _ => rfl
  | v :: r, h => by
    rw [areKeys, Bool.and_eq_true] at h
    rw [areProper, isProper_of_isKey v h.1, areProper_of_areKeys r h.2, Bool.and_self]

end

end Value

namespace Fields

/-- Mappings whose keys may be keys. -/
def Hashed (fs : Fields) : Prop :=
  ∀ e ∈ fs, e.1.isKey = true

theorem Hashed.insert {fs : Fields} (h : Hashed fs) {key : Value} (hkey : key.isKey = true)
    (v : Value) : Hashed (Fields.insert fs key v) := by
  intro e he
  rcases mem_insert he with hmem | rfl | ⟨-, -, w, hw⟩
  · exact h e hmem
  · exact hkey
  · exact h (e.1, w) hw

theorem find?_cons (e : Value × Value) (fs : Fields) (key : Value) :
    find? (e :: fs) key = if e.1.same key then some e.2 else find? fs key := by
  unfold find?
  rw [List.find?_cons]
  split <;> simp [*]

/-- Setting a key is seen under the keys that are the same as it, and under no others. -/
theorem find?_insert {fs : Fields} (h : Hashed fs) {key name : Value} (hkey : key.isKey = true)
    (hname : name.isKey = true) (v : Value) :
    find? (insert fs key v) name = if key.same name then some v else find? fs name := by
  have hproper := Value.isProper_of_isKey key hkey
  have hproper' := Value.isProper_of_isKey name hname
  induction fs with
  | nil => rw [insert, find?_cons]
  | cons e r ih =>
    obtain ⟨he, hr⟩ := List.forall_mem_cons.mp h
    have hentry := Value.isProper_of_isKey e.1 he
    rw [insert]
    split
    · next hsame =>
      -- the field keeps its own key, which is the same as the names that the new key is the same as
      have hiff : e.1.same name = key.same name := by
        apply Bool.eq_iff_iff.mpr
        constructor
        · exact Value.same_trans hproper hentry hproper' (Value.same_symm hentry hproper hsame)
        · exact Value.same_trans hentry hproper hproper' hsame
      rw [find?_cons, find?_cons, hiff]
      split <;> rfl
    · next hdiffers =>
      rw [find?_cons, find?_cons, ih hr]
      by_cases hmine : e.1.same name = true
      · have hother : ¬key.same name = true := by
          intro hsame
          apply hdiffers
          exact Value.same_trans hentry hproper' hproper hmine
            (Value.same_symm hproper hproper' hsame)
        rw [if_pos hmine, if_neg hother, if_pos hmine]
      · rw [if_neg hmine, if_neg hmine]

/-- Nothing stands under a key that is not the same as itself. -/
theorem find?_of_not_same {fs : Fields} (h : Hashed fs) {key : Value} (hkey : key.isKey = true)
    (hself : key.same key = false) : find? fs key = none := by
  have hproper := Value.isProper_of_isKey key hkey
  induction fs with
  | nil => rfl
  | cons e r ih =>
    obtain ⟨he, hr⟩ := List.forall_mem_cons.mp h
    have hentry := Value.isProper_of_isKey e.1 he
    have hdiffers : ¬e.1.same key = true := by
      intro hsame
      have hback := Value.same_symm hentry hproper hsame
      cases hself.symm.trans (Value.same_trans hproper hentry hproper hback hsame)
    rw [find?_cons, if_neg hdiffers, ih hr]

end Fields

end Overlay
