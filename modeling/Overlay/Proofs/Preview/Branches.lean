import Overlay.Proofs.Preview.Chains
import Overlay.Proofs.Value.Sameness

/-!
# Reordering branches

The statements about an object form branches, each of which begins with a statement that is not
chained.  All branches write into the same attributes, one after the other.  A branch reads and writes
nothing but the keys that its statements mention, so two branches without a common key can trade
places, and with them any number of branches.

## Main definitions
- `Fields.AgreeOn`: mappings that hold the same under some keys
- `LocalTo`: changes that neither see nor touch anything but some keys
- `Opens`: statements that form a branch of their own
- `MentionedIn`: the keys that statements mention
- `Independent`: statements without a common key

## Main statements
- `LocalTo.commute`: changes of different keys commute
- `localTo_steps`: statements are local to the keys that they mention
- `steps_flatten`: branches are played one after the other
- `together_of_perm`: independent branches can be reordered
- `Evaluation.object_perm`: an object shows the same when its branches are reordered
-/

namespace Overlay

open Overlay.Number

/-! ## Section 1: Mappings that agree -/

/-- Two mappings hold the same under some keys. -/
structure Fields.AgreeOn (K : Value → Prop) (a b : Fields) : Prop where
  left : Hashed a
  right : Hashed b
  find?_eq : ∀ key : Value, key.isKey = true → K key → find? a key = find? b key

namespace Fields.AgreeOn

variable {K L : Value → Prop} {a b c : Fields}

theorem refl (h : Hashed a) : AgreeOn K a a :=
  ⟨h, h, fun _ _ _ => rfl⟩

theorem trans (h : AgreeOn K a b) (h' : AgreeOn K b c) : AgreeOn K a c :=
  ⟨h.left, h'.right, fun key hkey hK => (h.find?_eq key hkey hK).trans (h'.find?_eq key hkey hK)⟩

theorem mono (h : AgreeOn L a b) (himp : ∀ key : Value, key.isKey = true → K key → L key) :
    AgreeOn K a b :=
  ⟨h.left, h.right, fun key hkey hK => h.find?_eq key hkey (himp key hkey hK)⟩

/-- A key looks the same in both mappings, if the keys that are the same as it do. -/
theorem find?_eq_of_covers (h : AgreeOn K a b) {key : Value} (hkey : key.isKey = true)
    (hK : ∀ name, key.same name = true → K name) : find? a key = find? b key := by
  cases hself : key.same key with
  | true => exact h.find?_eq key hkey (hK key hself)
  | false => rw [find?_of_not_same h.left hkey hself, find?_of_not_same h.right hkey hself]

theorem insert (h : AgreeOn K a b) {key : Value} (hkey : key.isKey = true) (v : Value) :
    AgreeOn K (Fields.insert a key v) (Fields.insert b key v) := by
  refine ⟨h.left.insert hkey v, h.right.insert hkey v, fun name hname hK => ?_⟩
  rw [find?_insert h.left hkey hname, find?_insert h.right hkey hname, h.find?_eq name hname hK]

/-- Setting a key does not change what stands under other keys. -/
theorem insert_right (h : Hashed a) {key : Value} (hkey : key.isKey = true)
    (hK : ∀ name, key.same name = true → K name) (v : Value) :
    AgreeOn (fun name => ¬K name) a (Fields.insert a key v) := by
  refine ⟨h, h.insert hkey v, fun name hname hother => ?_⟩
  rw [find?_insert h hkey hname, if_neg fun hsame => hother (hK name hsame)]

/-- Two ways round a square, from `a` through `x` to `z` and through `y` to `w`: each of two changes is
made once before and once behind the other one. -/
theorem of_square {x y z w : Fields} (hdisjoint : ∀ key : Value, key.isKey = true → K key → ¬L key)
    (hax : AgreeOn (fun key => ¬K key) a x) (hay : AgreeOn (fun key => ¬L key) a y)
    (hxz : AgreeOn (fun key => ¬L key) x z) (hyw : AgreeOn (fun key => ¬K key) y w)
    (hyz : AgreeOn L y z) (hxw : AgreeOn K x w) : AgreeOn (fun _ => True) z w := by
  refine ⟨hxz.right, hyw.right, fun key hkey _ => ?_⟩
  by_cases hK : K key
  · rw [← hxz.find?_eq key hkey (hdisjoint key hkey hK), hxw.find?_eq key hkey hK]
  · by_cases hL : L key
    · rw [← hyz.find?_eq key hkey hL, hyw.find?_eq key hkey hK]
    · -- neither change is about this key
      rw [← hxz.find?_eq key hkey hL, ← hax.find?_eq key hkey hK, hay.find?_eq key hkey hL,
        hyw.find?_eq key hkey hK]

end Fields.AgreeOn

/-! ## Section 2: Local changes -/

/-- A change that neither sees nor touches anything but some keys: under other keys it leaves what was
there, and what it does to these keys only depends on what stands under them. -/
structure LocalTo (K : Value → Prop) (f : Fields → Result Fields) : Prop where
  keeps : ∀ attrs : Fields, Fields.Hashed attrs →
    Yields (Fields.AgreeOn (fun key => ¬K key) attrs) (f attrs)
  follows : ∀ a b, Fields.AgreeOn K a b → Together (Fields.AgreeOn K) (f a) (f b)

namespace LocalTo

variable {K L : Value → Prop} {f g : Fields → Result Fields}

theorem nothing : LocalTo K Except.ok :=
  ⟨fun _ h => Yields.ok (Fields.AgreeOn.refl h), fun _ _ h => Together.answers h⟩

theorem fails (fault : Fault) : LocalTo K fun _ => .error fault :=
  ⟨fun _ _ => Yields.error fault, fun _ _ _ => Together.faults fault fault⟩

theorem bind (hf : LocalTo K f) (hg : LocalTo K g) : LocalTo K fun attrs => f attrs >>= g := by
  constructor
  · intro attrs hattrs
    refine Yields.bind (hf.keeps attrs hattrs) fun x hx y hy => ?_
    exact hx.trans (hg.keeps x hx.right y hy)
  · intro a b hab
    exact Together.bind (hf.follows a b hab) hg.follows

/-- What is computed without the attributes may fail, or else decides what is done. -/
theorem bind_result {α : Type} {r : Result α} {h : α → Fields → Result Fields}
    (hh : ∀ x, r = .ok x → LocalTo K (h x)) : LocalTo K fun attrs => r >>= fun x => h x attrs := by
  cases r with
  | error fault => exact fails fault
  | ok x =>
    simp only [ok_bind]
    exact hh x rfl

theorem mono (h : LocalTo K f) (himp : ∀ key : Value, key.isKey = true → K key → L key) :
    LocalTo L f := by
  have hothers : ∀ attrs : Fields, Fields.Hashed attrs →
      Yields (Fields.AgreeOn (fun key => ¬K key) attrs) (f attrs) := h.keeps
  constructor
  · intro attrs hattrs x hx
    apply (hothers attrs hattrs x hx).mono
    exact fun key hkey hL hK => hL (himp key hkey hK)
  · intro a b hab
    apply (h.follows a b (hab.mono himp)).mono
    intro x y hx hy hxy
    have hax := hothers a hab.left x hx
    have hby := hothers b hab.right y hy
    refine ⟨hxy.left, hxy.right, fun key hkey hL => ?_⟩
    -- a key is either one that the change is local to, or it still holds what it held before
    by_cases hK : K key
    · exact hxy.find?_eq key hkey hK
    · rw [← hax.find?_eq key hkey hK, hab.find?_eq key hkey hL, hby.find?_eq key hkey hK]

/-- Setting a key is local to all keys that are the same as it, and so is what depends on it. -/
theorem insert {key : Value} (hkey : key.isKey = true) (hK : ∀ name, key.same name = true → K name)
    (v : Value) : LocalTo K fun attrs => .ok (Fields.insert attrs key v) := by
  constructor
  · intro attrs hattrs
    exact Yields.ok (Fields.AgreeOn.insert_right hattrs hkey hK v)
  · intro a b hab
    exact Together.answers (hab.insert hkey v)

theorem find? {key : Value} (hkey : key.isKey = true) (hK : ∀ name, key.same name = true → K name)
    {h : Option Value → Fields → Result Fields} (hh : ∀ o, LocalTo K (h o)) :
    LocalTo K fun attrs => h (Fields.find? attrs key) attrs := by
  constructor
  · intro attrs hattrs
    exact (hh (Fields.find? attrs key)).keeps attrs hattrs
  · intro a b hab
    rw [hab.find?_eq_of_covers hkey hK]
    exact (hh (Fields.find? b key)).follows a b hab

/-- What a change does to its keys is the same before and after a change of other keys. -/
theorem together_after (hf : LocalTo K f) (hg : LocalTo L g)
    (hdisjoint : ∀ key : Value, key.isKey = true → K key → ¬L key) {a b : Fields}
    (ha : Fields.Hashed a) (hb : g a = .ok b) : Together (Fields.AgreeOn K) (f a) (f b) := by
  apply hf.follows a b
  exact (hg.keeps a ha b hb).mono hdisjoint

/-- Changes of different keys can be made in either order. -/
theorem commute (hf : LocalTo K f) (hg : LocalTo L g)
    (hdisjoint : ∀ key : Value, key.isKey = true → K key → ¬L key) {a : Fields}
    (ha : Fields.Hashed a) :
    Together (Fields.AgreeOn fun _ => True) (f a >>= g) (g a >>= f) := by
  have hdisjoint' : ∀ key : Value, key.isKey = true → L key → ¬K key :=
    fun key hkey hL hK => hdisjoint key hkey hK hL
  cases hx : f a with
  | error fault =>
    cases hy : g a with
    | error fault' => exact Together.faults fault fault'
    | ok y =>
      -- the first change still fails behind the second one
      have hagain := hf.together_after hg hdisjoint ha hy
      rw [hx] at hagain
      obtain ⟨fault', hfails⟩ := hagain.exists_error
      rw [error_bind, ok_bind, hfails]
      exact Together.faults fault fault'
  | ok x =>
    have hagain := hg.together_after hf hdisjoint' ha hx
    cases hy : g a with
    | error fault =>
      rw [hy] at hagain
      obtain ⟨fault', hfails⟩ := hagain.exists_error
      rw [error_bind, ok_bind, hfails]
      exact Together.faults fault' fault
    | ok y =>
      -- both changes are made in both orders
      have hagain' := hf.together_after hg hdisjoint ha hy
      rw [hy] at hagain
      rw [hx] at hagain'
      obtain ⟨z, hz, hyz⟩ := hagain.exists_ok
      obtain ⟨w, hw, hxw⟩ := hagain'.exists_ok
      have hax := hf.keeps a ha x hx
      have hay := hg.keeps a ha y hy
      have hxz := hg.keeps x hax.right z hz
      have hyw := hf.keeps y hay.right w hw
      rw [ok_bind, ok_bind, hz, hw]
      apply Together.answers
      exact Fields.AgreeOn.of_square hdisjoint hax hay hxz hyw hyz hxw

end LocalTo

/-! ## Section 3: Statements -/

namespace Evaluation

/-- The properties that a statement sets, as it is read once it is over. -/
def propertiesOf (statement : Value) : Result Fields :=
  statement.field "properties" >>= Value.toFields

end Evaluation

/-- Keys that statements mention among their properties. -/
def MentionedIn (statements : List Value) (key : Value) : Prop :=
  ∃ v ∈ statements, ∃ ps, Evaluation.propertiesOf v = .ok ps ∧ ∃ e ∈ ps, e.1.same key = true

/-- Properties are written under keys. -/
def AreHashed (statements : List Value) : Prop :=
  ∀ v ∈ statements, ∀ ps, Evaluation.propertiesOf v = .ok ps → Fields.Hashed ps

theorem propertiesOf_statement (s : Statement) :
    Evaluation.propertiesOf s.toValue = .ok s.properties :=
  rfl

/-- The statements of a script mention the keys of their properties. -/
theorem mentionedIn_statements {ss : List Statement} {key : Value} :
    MentionedIn (ss.map Statement.toValue) key ↔ ∃ s ∈ ss, ∃ e ∈ s.properties, e.1.same key = true := by
  simp [MentionedIn, propertiesOf_statement]

theorem areHashed_statements {ss : List Statement} (h : ∀ s ∈ ss, Fields.Hashed s.properties) :
    AreHashed (ss.map Statement.toValue) := by
  intro v hv ps hps
  obtain ⟨s, hs, rfl⟩ := List.mem_map.mp hv
  rw [propertiesOf_statement] at hps
  rw [← Except.ok.inj hps]
  exact h s hs

variable {K : Value → Prop}

/-- Properties whose keys are all among some keys. -/
structure CoveredBy (K : Value → Prop) (ps : Fields) : Prop where
  hashed : Fields.Hashed ps
  covers : ∀ e ∈ ps, ∀ name, e.1.same name = true → K name

theorem CoveredBy.cons {e : Value × Value} {ps : Fields} (h : CoveredBy K (e :: ps)) :
    e.1.isKey = true ∧ (∀ name, e.1.same name = true → K name) ∧ CoveredBy K ps := by
  obtain ⟨hkey, hkeys⟩ := List.forall_mem_cons.mp h.hashed
  obtain ⟨hK, hKs⟩ := List.forall_mem_cons.mp h.covers
  exact ⟨hkey, hK, hkeys, hKs⟩

theorem localTo_merge {ps : Fields} (h : CoveredBy K ps) :
    LocalTo K fun attrs => .ok (Fields.merge attrs ps) := by
  induction ps with
  | nil => exact LocalTo.nothing
  | cons e r ih =>
    obtain ⟨hkey, hK, hr⟩ := h.cons
    exact (LocalTo.insert hkey hK e.2).bind (ih hr)

theorem localTo_blend {ps : Fields} (h : CoveredBy K ps) (ratio : Double) :
    LocalTo K fun attrs => Evaluation.blend ratio attrs ps := by
  induction ps with
  | nil => exact LocalTo.nothing
  | cons e r ih =>
    obtain ⟨hkey, hK, hr⟩ := h.cons
    -- what stands under the key is looked at first, and then the key is set
    apply LocalTo.find? hkey hK (h := fun o attrs =>
      Evaluation.mix (o.getD e.2) e.2 ratio >>= fun w =>
        Evaluation.blend ratio (Fields.insert attrs e.1 w) r)
    intro o
    apply LocalTo.bind_result
    intro w _
    exact (LocalTo.insert hkey hK w).bind (ih hr)

/-- A change of attributes that also says where it ends, which does not depend on the attributes. -/
def MovesOn (K : Value → Prop) (f : Fields → Result (Fields × Double)) : Prop :=
  ∃ stop change, LocalTo K change ∧ ∀ attrs, f attrs = (change attrs).map fun a => (a, stop)

namespace MovesOn

theorem of_localTo {change : Fields → Result Fields} (h : LocalTo K change) (stop : Double) :
    MovesOn K fun attrs => change attrs >>= fun a => .ok (a, stop) := by
  refine ⟨stop, change, h, fun attrs => ?_⟩
  cases hchange : change attrs with
  | error fault => simp [hchange]
  | ok a => simp [hchange]

theorem fails (fault : Fault) : MovesOn K fun _ => .error fault :=
  ⟨Double.zero, fun _ => .error fault, LocalTo.fails fault, fun _ => rfl⟩

theorem bind_result {α : Type} {r : Result α} {h : α → Fields → Result (Fields × Double)}
    (hh : ∀ x, r = .ok x → MovesOn K (h x)) : MovesOn K fun attrs => r >>= fun x => h x attrs := by
  cases r with
  | error fault => exact fails fault
  | ok x =>
    simp only [ok_bind]
    exact hh x rfl

end MovesOn

/-- What a statement does is local to the keys that it mentions. -/
theorem movesOn_step {v : Value} (time : Value) (chainEnd : Double)
    (hK : ∀ ps, Evaluation.propertiesOf v = .ok ps → CoveredBy K ps) :
    MovesOn K fun attrs => Evaluation.step time attrs chainEnd v := by
  unfold Evaluation.step
  apply MovesOn.bind_result
  intro chained _
  apply MovesOn.bind_result
  intro duration _
  apply MovesOn.bind_result
  intro length _
  apply MovesOn.bind_result
  intro t _
  generalize (if chained.holds = true then chainEnd else Double.zero) = start
  -- the statement is yet to come, or over, or running
  split
  · exact ⟨start.add length, _, LocalTo.nothing, fun _ => rfl⟩
  · split
    · apply MovesOn.bind_result
      intro w hw
      apply MovesOn.bind_result
      intro ps hps
      have hps' : Evaluation.propertiesOf v = .ok ps := by
        rw [Evaluation.propertiesOf, hw, ok_bind, hps]
      exact ⟨start.add length, _, localTo_merge (hK ps hps'), fun _ => rfl⟩
    · apply MovesOn.bind_result
      intro x _
      apply MovesOn.bind_result
      intro w hw
      cases w with
      | dict ps =>
        have hps : Evaluation.propertiesOf v = .ok ps := by
          rw [Evaluation.propertiesOf, hw, ok_bind, Value.toFields]
        exact MovesOn.of_localTo (localTo_blend (hK ps hps) ((x.sub start).div length)) _
      | _ => exact MovesOn.fails .notOffered

/-! ## Section 4: Branches -/

/-- Statements that form a branch of their own, as the first one is not chained; the others usually
are. -/
def Opens (statements : List Value) : Prop :=
  ∃ first rest c, statements = first :: rest ∧ first.field "chained" = .ok c ∧ c.holds = false

/-- Statements without a common key. -/
def Independent (b c : List Value) : Prop :=
  ∀ key : Value, key.isKey = true → MentionedIn b key → ¬MentionedIn c key

theorem Independent.symm {b c : List Value} (h : Independent b c) : Independent c b :=
  fun key hkey hc hb => h key hkey hb hc

theorem coveredBy_of_mem {b : List Value} (hb : AreHashed b) {v : Value} (hv : v ∈ b) {ps : Fields}
    (hps : Evaluation.propertiesOf v = .ok ps) : CoveredBy (MentionedIn b) ps :=
  ⟨hb v hv ps hps, fun e he _ hname => ⟨v, hv, ps, hps, e, he, hname⟩⟩

/-- What statements do, one after the other, is local to the keys that they mention. -/
theorem localTo_steps {vs : List Value} (time : Value) (chainEnd : Double)
    (hK : ∀ v ∈ vs, ∀ ps, Evaluation.propertiesOf v = .ok ps → CoveredBy K ps) :
    LocalTo K fun attrs => Evaluation.steps time attrs chainEnd vs := by
  induction vs generalizing chainEnd with
  | nil => exact LocalTo.nothing
  | cons v r ih =>
    obtain ⟨hv, hr⟩ := List.forall_mem_cons.mp hK
    obtain ⟨stop, change, hchange, hstep⟩ := movesOn_step time chainEnd hv
    simp only at hstep
    have hsteps : (fun attrs => Evaluation.steps time attrs chainEnd (v :: r))
        = fun attrs => change attrs >>= fun a => Evaluation.steps time a stop r := by
      funext attrs
      rw [Evaluation.steps, hstep]
      cases change attrs <;> simp
    rw [hsteps]
    exact hchange.bind (ih stop hr)

/-- What a branch makes of attributes at a time. -/
def branch (time : Value) (attrs : Fields) (b : List Value) : Result Fields :=
  Evaluation.steps time attrs Double.zero b

theorem localTo_branch {b : List Value} (hb : AreHashed b) (time : Value) :
    LocalTo (MentionedIn b) fun attrs => branch time attrs b :=
  localTo_steps time Double.zero fun _ hv _ hps => coveredBy_of_mem hb hv hps

/-- A branch begins at time zero, whatever has been played before it. -/
theorem steps_of_opens {b : List Value} (hb : Opens b) (ws : List Value) (time : Value)
    (attrs : Fields) (chainEnd : Double) :
    Evaluation.steps time attrs chainEnd (b ++ ws)
      = Evaluation.steps time attrs Double.zero (b ++ ws) := by
  obtain ⟨first, rest, c, rfl, hc, hholds⟩ := hb
  simp [Evaluation.steps, Evaluation.step, hc, hholds]

/-- Statements in front of branches are played first. -/
theorem steps_append_flatten {bs : List (List Value)} (hbs : ∀ b ∈ bs, Opens b) (vs : List Value)
    (time : Value) (attrs : Fields) (chainEnd : Double) :
    Evaluation.steps time attrs chainEnd (vs ++ bs.flatten)
      = Evaluation.steps time attrs chainEnd vs >>= fun a =>
          Evaluation.steps time a Double.zero bs.flatten := by
  induction vs generalizing attrs chainEnd with
  | nil =>
    rw [List.nil_append, Evaluation.steps, ok_bind]
    cases bs with
    | nil => rfl
    | cons b r => exact steps_of_opens (hbs b List.mem_cons_self) r.flatten time attrs chainEnd
  | cons v r ih =>
    rw [List.cons_append, Evaluation.steps, Evaluation.steps]
    cases Evaluation.step time attrs chainEnd v with
    | error fault => simp
    | ok moved => simp [ih]

/-- Branches are played one after the other. -/
theorem steps_flatten {bs : List (List Value)} (hbs : ∀ b ∈ bs, Opens b) (time : Value)
    (attrs : Fields) :
    Evaluation.steps time attrs Double.zero bs.flatten = bs.foldlM (branch time) attrs := by
  induction bs generalizing attrs with
  | nil => rfl
  | cons b r ih =>
    rw [List.forall_mem_cons] at hbs
    rw [List.flatten_cons, steps_append_flatten hbs.2, List.foldlM_cons]
    exact congrArg (branch time attrs b >>= ·) (funext fun a => ih hbs.2 a)

/-! ## Section 5: Reordering -/

/-- Branches are played alike on mappings that hold the same. -/
theorem together_foldlM {bs : List (List Value)} (hbs : ∀ b ∈ bs, AreHashed b) (time : Value)
    {a b : Fields} (hab : Fields.AgreeOn (fun _ => True) a b) :
    Together (Fields.AgreeOn fun _ => True) (bs.foldlM (branch time) a) (bs.foldlM (branch time) b) := by
  induction bs generalizing a b with
  | nil => exact Together.answers hab
  | cons c r ih =>
    rw [List.forall_mem_cons] at hbs
    rw [List.foldlM_cons, List.foldlM_cons]
    have hc := (localTo_branch hbs.1 time).mono (L := fun _ => True) fun _ _ _ => trivial
    exact Together.bind (hc.follows a b hab) fun _ _ hxy => ih hbs.2 hxy

/-- Independent branches can be reordered. -/
theorem together_of_perm {bs bs' : List (List Value)} (hperm : bs.Perm bs')
    (hbs : ∀ b ∈ bs, AreHashed b) (hindependent : bs.Pairwise Independent) (time : Value)
    {attrs : Fields} (hattrs : Fields.Hashed attrs) :
    Together (Fields.AgreeOn fun _ => True) (bs.foldlM (branch time) attrs)
      (bs'.foldlM (branch time) attrs) := by
  induction hperm generalizing attrs with
  | nil => exact Together.answers (Fields.AgreeOn.refl hattrs)
  | @cons b r r' _ ih =>
    rw [List.forall_mem_cons] at hbs
    rw [List.foldlM_cons, List.foldlM_cons]
    apply Together.bind (Together.same (q := fun x y => x = y ∧ Fields.Hashed x) ?_)
    · rintro x _ ⟨rfl, hx⟩
      exact ih hbs.2 hindependent.of_cons hx
    · intro x hx
      exact ⟨rfl, ((localTo_branch hbs.1 time).keeps attrs hattrs x hx).right⟩
  | swap b c r =>
    -- the two branches in front trade places, and the others follow on attributes that agree
    simp only [List.forall_mem_cons, List.pairwise_cons] at hbs hindependent
    have hcb : Independent c b := hindependent.1.1
    have htrade := (localTo_branch hbs.1 time).commute (localTo_branch hbs.2.1 time) hcb hattrs
    simp only [List.foldlM_cons, ← bind_assoc]
    exact Together.bind htrade fun x y hxy => together_foldlM hbs.2.2 time hxy
  | @trans bs cs ds hbc _ ih ih' =>
    have hcs : ∀ c ∈ cs, AreHashed c := fun c hc => hbs c (hbc.mem_iff.mpr hc)
    have hindependent' := (hbc.pairwise_iff Independent.symm).mp hindependent
    exact (ih hbs hindependent hattrs).trans (fun _ _ _ h h' => h.trans h')
      (ih' hcs hindependent' hattrs)

/-- Branches whose statements mention different keys can be reordered: at any time, the object either
has the same under every attribute key, or cannot be evaluated in either order. -/
theorem Evaluation.object_perm {d time : Value} {bs bs' : List (List Value)}
    (hd : ∀ attrs, Evaluation.initial d = .ok attrs → Fields.Hashed attrs)
    (hopens : ∀ b ∈ bs, Opens b) (hbs : ∀ b ∈ bs, AreHashed b)
    (hindependent : bs.Pairwise Independent) (hperm : bs'.Perm bs) :
    Together (fun attrs attrs' => ∀ key : Value, key.isKey = true →
        Fields.find? attrs' key = Fields.find? attrs key)
      (Evaluation.object d bs.flatten time) (Evaluation.object d bs'.flatten time) := by
  have hopens' : ∀ b ∈ bs', Opens b := fun b hb => hopens b (hperm.mem_iff.mp hb)
  rw [Evaluation.object, Evaluation.object]
  cases hinitial : Evaluation.initial d with
  | error fault => exact Together.faults fault fault
  | ok attrs =>
    rw [ok_bind, ok_bind, steps_flatten hopens, steps_flatten hopens']
    have htogether := together_of_perm hperm.symm hbs hindependent time (hd attrs hinitial)
    exact htogether.mono fun x y _ _ hxy key hkey => (hxy.find?_eq key hkey trivial).symm

/-- The branches of an object that moves in two steps, and fades meanwhile. -/
def movingBranches : List (List Statement) :=
  [movingObject.take 2, movingObject.drop 2]

/-- One branch is running, the other one is over. -/
theorem Evaluation.object_perm_of_moving_object :
    let d := (⟨.text, "a", [(.text "size", .int 30)]⟩ : Definition).toValue
    let bs := movingBranches.map (List.map Statement.toValue)
    let shown := Value.dict
      [(.text "size", .int 30), (.text "x", .int 125), (.text "alpha", .int 0)]
    ((Evaluation.object d bs.flatten (.int 1500)).toOption.any fun attrs =>
        (Value.dict attrs).same shown) = true
      ∧ Together (fun attrs attrs' => ∀ key : Value, key.isKey = true →
          Fields.find? attrs' key = Fields.find? attrs key)
        (Evaluation.object d bs.flatten (.int 1500))
        (Evaluation.object d bs.reverse.flatten (.int 1500)) := by
  intro d bs shown
  have hd : ∀ attrs, Evaluation.initial d = .ok attrs → Fields.Hashed attrs := by
    intro attrs hattrs
    rw [← Except.ok.inj hattrs]
    simp [Fields.Hashed, Value.isKey]
  have hopens : ∀ b ∈ bs, Opens b := by
    simp only [bs, movingBranches, movingObject, List.map_cons, List.map_nil, List.take, List.drop,
      List.forall_mem_cons]
    refine ⟨⟨_, _, .bool false, rfl, rfl, rfl⟩, ⟨_, _, .bool false, rfl, rfl, rfl⟩, ?_⟩
    simp
  have hhashed : ∀ b ∈ bs, AreHashed b := by
    intro b hb
    obtain ⟨ss, hss, rfl⟩ := List.mem_map.mp hb
    apply areHashed_statements
    simp only [movingBranches, List.mem_cons, List.not_mem_nil, or_false] at hss
    rcases hss with rfl | rfl <;> simp [movingObject, Fields.Hashed, Value.isKey]
  have hindependent : bs.Pairwise Independent := by
    apply List.pairwise_pair.mpr
    intro key _ hx halpha
    rw [mentionedIn_statements] at hx halpha
    simp [movingObject, Value.text_same] at hx halpha
    rw [hx] at halpha
    simp at halpha
  refine ⟨by decide +kernel, ?_⟩
  exact Evaluation.object_perm hd hopens hhashed hindependent (List.reverse_perm bs)

end Overlay
