import Mathlib.Data.List.Forall2
import PortableRuntime.Python.Text

/-
JSON values as the runtime's Python sees them.

A model dump is a list of named values.  Comparison is Python's: the order of the
keys of an object does not count, and a Boolean equals the integer it stands for.
A `datetime` is the ISO text of an instant, kept as the instant.
-/

namespace PortableRuntime

/-- Microseconds since the epoch. -/
abbrev Time := Int

inductive Json where
  | null
  | bool (b : Bool)
  | int (n : Int)
  /-- A float that is not an integer, by its truncation and its text. -/
  | float (trunc : Int) (text : String)
  | str (s : String)
  | datetime (t : Time)
  | arr (items : List Json)
  | obj (fields : List (String × Json))
deriving Repr, Inhabited

abbrev Fields := List (String × Json)

/-- The exceptions the modelled code raises. -/
inductive PyError where
  | valueError (message : String)
  | typeError (message : String)
  | runtimeError (message : String)
  | leaseExecutionError (message : String)
  | qualificationResolutionError (message : String)
deriving Repr, DecidableEq, Inhabited

def PyError.message : PyError → String
  | .valueError message => message
  | .typeError message => message
  | .runtimeError message => message
  | .leaseExecutionError message => message
  | .qualificationResolutionError message => message

abbrev Result := Except PyError

def raiseValue {α : Type} (message : String) : Result α := .error (.valueError message)

def guardValue (holds : Bool) (message : String) : Result Unit :=
  if holds then .ok () else raiseValue message

def orRaise {α : Type} (value : Option α) (message : String) : Result α :=
  match value with
  | some a => .ok a
  | none => raiseValue message

theorem Result.bind_eq_ok {α β : Type} {x : Result α} {f : α → Result β} {b : β} :
    (x >>= f) = .ok b ↔ ∃ a, x = .ok a ∧ f a = .ok b := by
  cases x with
  | error e => simp [bind, Except.bind]
  | ok a => simp [bind, Except.bind]

theorem Result.exists_of_isOk {α : Type} {x : Result α} (h : x.isOk = true) : ∃ a, x = .ok a := by
  cases x with
  | ok a => exact ⟨a, rfl⟩
  | error e => exact absurd h Bool.false_ne_true

/-- A check before the rest of a computation. -/
theorem Result.check_eq_ok {β : Type} {x : Result Unit} {f : Unit → Result β} {b : β} :
    (x >>= f) = .ok b ↔ x = .ok () ∧ f () = .ok b := by
  rw [Result.bind_eq_ok]
  exact ⟨fun ⟨(), h⟩ => h, fun h => ⟨(), h⟩⟩

theorem Result.map_eq_ok {α β : Type} {f : α → β} {x : Result α} {b : β} :
    x.map f = .ok b ↔ ∃ a, x = .ok a ∧ f a = b := by
  cases x <;> simp [Except.map]

theorem Result.pure_eq_ok {α : Type} {a b : α} : (pure a : Result α) = .ok b ↔ a = b := by
  simp [pure, Except.pure]

theorem mapError_eq_ok {ε ε' α : Type} {x : Except ε α} {f : ε → ε'} {a : α} :
    x.mapError f = .ok a ↔ x = .ok a := by
  cases x <;> simp [Except.mapError]

theorem guardValue_eq_ok {holds : Bool} {message : String} {u : Unit} :
    guardValue holds message = .ok u ↔ holds = true := by
  cases holds <;> simp [guardValue, raiseValue]

theorem orRaise_eq_ok {α : Type} {value : Option α} {message : String} {a : α} :
    orRaise value message = .ok a ↔ value = some a := by
  cases value <;> simp [orRaise, raiseValue]

/-- A mapped list passes item by item. -/
theorem Result.mapM_eq_ok {α β : Type} {f : α → Result β} {l : List α} {l' : List β} :
    l.mapM f = .ok l' ↔ List.Forall₂ (fun a b => f a = .ok b) l l' := by
  induction l generalizing l' with
  | nil => rw [List.mapM_nil, Result.pure_eq_ok, List.forall₂_nil_left_iff, eq_comm]
  | cons a rest ih =>
    simp only [List.mapM_cons, Result.bind_eq_ok, Result.pure_eq_ok, ih, List.forall₂_cons_left_iff]
    constructor
    · rintro ⟨b, hb, bs, hbs, rfl⟩
      exact ⟨b, bs, hb, hbs, rfl⟩
    · rintro ⟨b, bs, hb, hbs, rfl⟩
      exact ⟨b, hb, bs, hbs, rfl⟩

/-- Each step of a computation over a list has a counterpart. -/
theorem Result.mapM_rel {α β γ : Type} {f : α → Result β} {g : α → Result γ} {R : β → γ → Prop}
    {l : List α} {bs : List β}
    (hstep : ∀ a ∈ l, ∀ b, f a = .ok b → ∃ c, g a = .ok c ∧ R b c) (h : l.mapM f = .ok bs) :
    ∃ cs, l.mapM g = .ok cs ∧ List.Forall₂ R bs cs := by
  rw [Result.mapM_eq_ok] at h
  induction h with
  | nil => exact ⟨[], Result.mapM_eq_ok.mpr .nil, .nil⟩
  | cons hab hrest ih =>
    obtain ⟨c, hc, hR⟩ := hstep _ List.mem_cons_self _ hab
    obtain ⟨cs, hcs, hall⟩ := ih (fun a ha => hstep a (List.mem_cons_of_mem _ ha))
    exact ⟨c :: cs, Result.mapM_eq_ok.mpr (.cons hc (Result.mapM_eq_ok.mp hcs)), .cons hR hall⟩

theorem Result.exists_mapM {α β : Type} {f : α → Result β} {l : List α}
    (h : ∀ a ∈ l, ∃ b, f a = .ok b) : ∃ bs, l.mapM f = .ok bs := by
  induction l with
  | nil => exact ⟨[], rfl⟩
  | cons a rest ih =>
    obtain ⟨⟨b, hb⟩, hrest⟩ := List.forall_mem_cons.mp h
    obtain ⟨bs, hbs⟩ := ih hrest
    exact ⟨b :: bs, Result.mapM_eq_ok.mpr (.cons hb (Result.mapM_eq_ok.mp hbs))⟩

/-- A loop of checks, each of which raises or goes on. -/
theorem Result.forIn_eq_ok {α : Type} {f : α → Unit → Result (ForInStep Unit)} {P : α → Prop}
    (hf : ∀ a x, f a () = .ok x ↔ P a ∧ x = .yield ()) {l : List α} {u : Unit} :
    forIn l () f = .ok u ↔ ∀ a ∈ l, P a := by
  induction l with
  | nil => simp [pure, Except.pure]
  | cons a rest ih =>
    rw [List.forIn_cons, Result.bind_eq_ok, List.forall_mem_cons]
    constructor
    · rintro ⟨x, hx, h⟩
      obtain ⟨ha, rfl⟩ := (hf a x).mp hx
      exact ⟨ha, ih.mp h⟩
    · rintro ⟨ha, hrest⟩
      exact ⟨_, (hf a _).mpr ⟨ha, rfl⟩, ih.mpr hrest⟩

theorem filterAuxM_of_ok {α : Type} {p : α → Result Bool} {q : α → Bool} {l : List α}
    (h : ∀ a ∈ l, p a = .ok (q a)) (acc : List α) :
    l.filterAuxM p acc = .ok ((l.filter q).reverse ++ acc) := by
  induction l generalizing acc with
  | nil => rfl
  | cons a rest ih =>
    rw [List.filterAuxM, h a List.mem_cons_self]
    have hrest : ∀ b ∈ rest, p b = .ok (q b) := fun b hb => h b (List.mem_cons_of_mem a hb)
    cases hq : q a with
    | true =>
      rw [List.filter_cons_of_pos hq, List.reverse_cons, List.append_assoc]
      exact ih hrest (a :: acc)
    | false =>
      rw [List.filter_cons_of_neg (by simp [hq])]
      exact ih hrest acc

theorem filterM_of_ok {α : Type} {p : α → Result Bool} {q : α → Bool} {l : List α}
    (h : ∀ a ∈ l, p a = .ok (q a)) : l.filterM p = .ok (l.filter q) := by
  rw [List.filterM, filterAuxM_of_ok h [], List.append_nil]
  exact congrArg Except.ok (List.reverse_reverse _)

/-- A loop that adds up what each item leads to. -/
theorem Result.foldlM_map_eq_ok {α β γ : Type} {f : α → Result β} {g : γ → β → γ} {l : List α}
    {c out : γ} : l.foldlM (fun c a => (f a).map (g c)) c = .ok out ↔
      ∃ found, l.mapM f = .ok found ∧ out = found.foldl g c := by
  simp only [Result.mapM_eq_ok]
  induction l generalizing c with
  | nil => simp [pure, Except.pure, eq_comm]
  | cons a rest ih =>
    rw [List.foldlM_cons, Result.bind_eq_ok]
    constructor
    · rintro ⟨c', hstep, hrest⟩
      obtain ⟨b, hb, rfl⟩ := Result.map_eq_ok.mp hstep
      obtain ⟨found, hfound, rfl⟩ := ih.mp hrest
      exact ⟨b :: found, .cons hb hfound, rfl⟩
    · rintro ⟨_, hfound, rfl⟩
      cases hfound with
      | cons hb hrest =>
        exact ⟨_, Result.map_eq_ok.mpr ⟨_, hb, rfl⟩, ih.mpr ⟨_, hrest, rfl⟩⟩

/-- A filter passes when its test passes on every item, and keeps what the test accepts. -/
theorem Result.filterM_eq_ok {α : Type} {p : α → Result Bool} {l r : List α} :
    l.filterM p = .ok r ↔ (∀ a ∈ l, ∃ b, p a = .ok b) ∧
      r = l.filter (fun a => (p a).toOption.getD false) := by
  have hof (h : ∀ a ∈ l, ∃ b, p a = .ok b) :
      l.filterM p = .ok (l.filter (fun a => (p a).toOption.getD false)) := by
    refine filterM_of_ok (fun a ha => ?_)
    obtain ⟨b, hb⟩ := h a ha
    rw [hb]
    rfl
  constructor
  · intro h
    have hall : ∀ a ∈ l, ∃ b, p a = .ok b := by
      clear hof
      rw [List.filterM] at h
      obtain ⟨out, hout, -⟩ := Result.bind_eq_ok.mp h
      clear h
      generalize ([] : List α) = acc at hout
      induction l generalizing acc with
      | nil => exact fun a ha => absurd ha List.not_mem_nil
      | cons a rest ih =>
        obtain ⟨b, hb, hrest⟩ := Result.bind_eq_ok.mp hout
        exact List.forall_mem_cons.mpr ⟨⟨b, hb⟩, ih _ hrest⟩
    refine ⟨hall, ?_⟩
    rw [hof hall] at h
    exact (Except.ok.inj h).symm
  · rintro ⟨hall, rfl⟩
    exact hof hall

theorem Result.filterM_perm {α : Type} {p : α → Result Bool} {l l' r : List α} (hperm : l.Perm l')
    (h : l.filterM p = .ok r) : ∃ r', l'.filterM p = .ok r' ∧ r.Perm r' := by
  obtain ⟨hall, rfl⟩ := Result.filterM_eq_ok.mp h
  exact ⟨_, Result.filterM_eq_ok.mpr ⟨fun a ha => hall a (hperm.mem_iff.mpr ha), rfl⟩, hperm.filter _⟩

theorem Result.length_of_mapM {α β : Type} {f : α → Result β} {l : List α} {l' : List β}
    (h : l.mapM f = .ok l') : l'.length = l.length := (Result.mapM_eq_ok.mp h).length_eq.symm

/-- Every item of a mapped list passed, and passes any check that agrees on what passes. -/
theorem Result.mapM_mono {α β : Type} {f g : α → Result β} {l : List α} {l' : List β}
    (hfg : ∀ a ∈ l, ∀ b, f a = .ok b → g a = .ok b) (h : l.mapM f = .ok l') :
    l.mapM g = .ok l' := by
  rw [Result.mapM_eq_ok] at h ⊢
  have hboth := (List.forall₂_and_left l l').mpr ⟨hfg, h⟩
  exact hboth.imp (fun a b hab => hab.1 b hab.2)

theorem Result.exists_of_mapM {α β : Type} {f : α → Result β} {l : List α} {l' : List β}
    (h : l.mapM f = .ok l') : ∀ a ∈ l, ∃ b, f a = .ok b := by
  rw [Result.mapM_eq_ok] at h
  induction h with
  | nil => exact fun a ha => absurd ha List.not_mem_nil
  | cons hab _ ih => exact List.forall_mem_cons.mpr ⟨⟨_, hab⟩, ih⟩

theorem Result.mem_of_mapM {α β : Type} {f : α → Result β} {l : List α} {l' : List β}
    (h : l.mapM f = .ok l') (b : β) : b ∈ l' ↔ ∃ a ∈ l, f a = .ok b := by
  rw [Result.mapM_eq_ok] at h
  induction h with
  | nil => simp
  | cons hab _ ih => simp [ih, hab, eq_comm]

namespace Fields

def get? (name : String) : Fields → Option Json
  | [] => none
  | (name', v) :: rest => if name' = name then some v else get? name rest

/-- `fields.get(name)`. -/
def get (fields : Fields) (name : String) : Json := (get? name fields).getD .null

/-- `fields.get(name, default)`. -/
def getOr (fields : Fields) (name : String) (default : Json) : Json :=
  (get? name fields).getD default

def has (fields : Fields) (name : String) : Bool := (get? name fields).isSome

/-- `fields.pop(name, None)`. -/
def pop (fields : Fields) (name : String) : Fields := fields.filter (fun f => f.1 ≠ name)

/-- The fields without those of a list of names. -/
def without (fields : Fields) (names : List String) : Fields := names.foldl pop fields

/-- `fields.get(a, fields.get(b, …))`: the value of the first name that is present. -/
def firstOf (fields : Fields) (names : List String) (default : Json) : Json :=
  match names with
  | [] => default
  | name :: rest => getOr fields name (firstOf fields rest default)

def names (fields : Fields) : List String := fields.map Prod.fst

/-- `{**fields, name: value}`. -/
def put (name : String) (v : Json) : Fields → Fields
  | [] => [(name, v)]
  | (name', v') :: rest => if name' = name then (name, v) :: rest else (name', v') :: put name v rest

end Fields

namespace Json

mutual
/-- `==` on JSON values. -/
def pyEq : Json → Json → Bool
  | .null, .null => true
  | .bool a, .bool b => a == b
  | .bool a, .int b => b == (if a then 1 else 0)
  | .int a, .bool b => a == (if b then 1 else 0)
  | .int a, .int b => a == b
  | .float t s, .float t' s' => t == t' && s == s'
  | .str a, .str b => a == b
  | .datetime a, .datetime b => a == b
  | .arr a, .arr b => pyEqItems a b
  | .obj a, .obj b => b.all (fun f => Fields.has a f.1) && pyEqFields [] a b
  | _, _ => false
termination_by structural x => x

def pyEqItems : List Json → List Json → Bool
  | [], [] => true
  | x :: xs, y :: ys => pyEq x y && pyEqItems xs ys
  | _, _ => false
termination_by structural x => x

/-- Every field of the first list that no earlier one hides is a field of the second
with an equal value. -/
def pyEqFields : List String → List (String × Json) → List (String × Json) → Bool
  | _, [], _ => true
  | seen, f :: rest, other =>
    (seen.contains f.1 || pyEqField f other) && pyEqFields (f.1 :: seen) rest other
termination_by structural _ x => x

def pyEqField : String × Json → List (String × Json) → Bool
  | (name, v), other => match Fields.get? name other with
    | some w => pyEq v w
    | none => false
termination_by structural x => x
end

/-- The truth value of a JSON value. -/
def truthy : Json → Bool
  | .null => false
  | .bool b => b
  | .int n => n != 0
  | .float _ _ => true
  | .str s => s != ""
  | .datetime _ => true
  | .arr items => !items.isEmpty
  | .obj fields => !fields.isEmpty

/-- `a or b`. -/
def pyOr (a b : Json) : Json := if a.truthy then a else b

def asStr? : Json → Option String
  | .str s => some s
  | _ => none

def asFields? : Json → Option Fields
  | .obj fields => some fields
  | _ => none

theorem str_of_asStr? {j : Json} {s : String} (h : j.asStr? = some s) : j = .str s := by
  cases j with
  | str t => exact congrArg Json.str (Option.some.inj h)
  | _ => cases h

/-- `value is None`. -/
def isNone : Json → Bool
  | .null => true
  | _ => false

def isStr (j : Json) : Bool := j.asStr?.isSome

/-- `isinstance(j, str) and j.strip()`. -/
def isNonBlankStr : Json → Bool
  | .str s => Text.nonBlank s
  | _ => false

def isArr : Json → Bool
  | .arr _ => true
  | _ => false

/-- `j == s` for a string `s`. -/
def eqStr (j : Json) (s : String) : Bool := j.pyEq (.str s)

/-- `j in {…}` for a set of strings: a list or an object has no hash. -/
def inSet (j : Json) (names : List String) : Result Bool :=
  match j with
  | .arr _ => .error (.typeError "unhashable type: 'list'")
  | .obj _ => .error (.typeError "unhashable type: 'dict'")
  | _ => .ok (names.any (fun s => j.eqStr s))

theorem inSet_congr {names names' : List String} (h : ∀ s, s ∈ names ↔ s ∈ names') (j : Json) :
    j.inSet names = j.inSet names' := by
  have hany : names.any (fun s => j.eqStr s) = names'.any (fun s => j.eqStr s) := by
    rw [Bool.eq_iff_iff, List.any_eq_true, List.any_eq_true]
    simp only [h]
  cases j with
  | arr items => rfl
  | obj fields => rfl
  | _ => exact congrArg Except.ok hany

mutual
/-- `repr(j)`. -/
def pyRepr : Json → String
  | .null => "None"
  | .bool true => "True"
  | .bool false => "False"
  | .int n => toString n
  | .float _ text => text
  | .str s => Text.pyRepr s
  | .datetime t => Text.pyRepr (Text.dateTime t ++ "Z")
  | .arr items => "[" ++ Text.join ", " (pyReprItems items) ++ "]"
  | .obj fields => "\x7b" ++ Text.join ", " (pyReprFields fields) ++ "\x7d"
termination_by structural x => x

def pyReprItems : List Json → List String
  | [] => []
  | j :: rest => pyRepr j :: pyReprItems rest
termination_by structural x => x

def pyReprFields : List (String × Json) → List String
  | [] => []
  | f :: rest => pyReprField f :: pyReprFields rest
termination_by structural x => x

def pyReprField : String × Json → String
  | (name, v) => Text.pyRepr name ++ ": " ++ pyRepr v
termination_by structural x => x
end

/-- `str(j)`. -/
def pyStr : Json → String
  | .str s => s
  | .datetime t => Text.dateTime t ++ "Z"
  | j => j.pyRepr

/-- `iter(j)`. -/
def iterate : Json → Result (List Json)
  | .arr items => .ok items
  | .obj fields => .ok ((Fields.names fields).map .str)
  | .str s => .ok (s.toList.map (fun c => .str (String.singleton c)))
  | .datetime t => .ok ((Text.dateTime t ++ "Z").toList.map (fun c => .str (String.singleton c)))
  | .null => .error (.typeError "'NoneType' object is not iterable")
  | .bool _ => .error (.typeError "'bool' object is not iterable")
  | .int _ => .error (.typeError "'int' object is not iterable")
  | .float _ _ => .error (.typeError "'float' object is not iterable")

/-- The digits of a decimal number. -/
def digits? (cs : List Char) : Option Nat :=
  if cs.isEmpty then none
  else cs.foldl (fun acc c =>
    acc.bind (fun n => if 48 ≤ c.toNat && c.toNat ≤ 57 then some (10 * n + (c.toNat - 48)) else none))
    (some 0)

/-- `int(s)` on the text of a decimal integer. -/
def intOfText? (s : String) : Option Int :=
  match (Text.strip s).toList with
  | '-' :: cs => (digits? cs).map (fun n => -(n : Int))
  | '+' :: cs => (digits? cs).map (fun n => (n : Int))
  | cs => (digits? cs).map (fun n => (n : Int))

/-- `int(j)`; `none` where it raises `TypeError` or `ValueError`. -/
def int? : Json → Option Int
  | .bool b => some (if b then 1 else 0)
  | .int n => some n
  | .float trunc _ => some trunc
  | .str s => intOfText? s
  | _ => none

def ofStrings (items : List String) : Json := .arr (items.map .str)

def ofOption (s : Option String) : Json := s.elim .null .str

end Json

/-- `int(version)`. -/
def versionInt (version : Json) : Result Int :=
  match version.int?, version with
  | some n, _ => .ok n
  | none, .str _ =>
    .error (.valueError s!"invalid literal for int() with base 10: {version.pyRepr}")
  | none, .datetime _ => .error (.valueError "invalid literal for int() with base 10")
  | none, _ =>
    .error (.typeError "int() argument must be a string, a bytes-like object or a real number")

namespace Fields

/-- `==` on dictionaries. -/
def pyEq (a b : Fields) : Bool := (Json.obj a).pyEq (.obj b)

/-- The keys under which two dictionaries differ, `{key for key in set(a) | set(b)
if a.get(key) != b.get(key)}`. -/
def changedKeys (a b : Fields) : List String :=
  (a.names ++ b.names).filter (fun name => !(a.get name).pyEq (b.get name))

theorem get_append_of_mem {front back : Fields} {name : String} {v : Json}
    (hnodup : front.names.Nodup) (h : (name, v) ∈ front) : (front ++ back).get name = v := by
  induction front with
  | nil => cases h
  | cons f rest ih =>
    obtain ⟨name', v'⟩ := f
    obtain ⟨hnew, hrest⟩ := List.nodup_cons.mp hnodup
    rcases List.mem_cons.mp h with heq | hmem
    · obtain ⟨rfl, rfl⟩ := Prod.mk.inj heq
      simp [Fields.get, Fields.get?]
    · have hne : name' ≠ name := by
        rintro rfl
        exact hnew (List.mem_map.mpr ⟨_, hmem, rfl⟩)
      simpa [Fields.get, Fields.get?, hne] using ih hrest hmem

theorem get_append_of_not_mem {front back : Fields} {name : String}
    (h : name ∉ front.names) : (front ++ back).get name = back.get name := by
  induction front with
  | nil => rfl
  | cons f rest ih =>
    obtain ⟨name', v'⟩ := f
    obtain ⟨hne, hrest⟩ := List.ne_and_not_mem_of_not_mem_cons h
    simpa [Fields.get, Fields.get?, Ne.symm hne] using ih hrest

end Fields

end PortableRuntime
