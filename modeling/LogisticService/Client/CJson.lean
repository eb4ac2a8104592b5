import LogisticService.CString
import LogisticService.Text
import Mathlib.Data.List.Basic

/-!
# JSON trees as cJSON holds them

`cJSON_GetObjectItem` and `cJSON_ReplaceItemInObject` along a path of names.
Names are compared without regard to case, the first member of a name counts,
and a name that is not there changes nothing. What a replacement put at a path
is found there, and it is not seen on paths that lead elsewhere
(`get_replace_same`, `get_replace_apart`).
-/

namespace LogisticService

open CLib

/-- A `cJSON` item. Arrays, truth values and null are never looked into. -/
inductive CJson
  | string (valuestring : CString)
  | number (valueint : Int)
  | object (members : List (String × CJson))
  | other

namespace CJson

/-- Names are equal but for their case. -/
def sameName (a b : String) : Bool := toLower a == toLower b

/-- `cJSON_GetObjectItem`. -/
def getObjectItem : CJson → String → Option CJson
  | .object members, name => (members.find? fun m => sameName m.1 name).map (·.2)
  | _, _ => none

/-- `cJSON_GetObjectItem` for one name of the path after another. -/
def get : List String → CJson → Option CJson
  | [], json => some json
  | name :: path, json => (json.getObjectItem name).bind (get path)

/-- The first member of a name is changed. -/
def modifyFirst (name : String) (f : String × CJson → String × CJson) :
    List (String × CJson) → List (String × CJson)
  | [] => []
  | m :: ms => if sameName m.1 name then f m :: ms else m :: modifyFirst name f ms

/-- `cJSON_ReplaceItemInObject` on the object that the path leads to but for
its last name. The item gets that name. -/
def replaceItemInObject (item : CJson) : List String → CJson → CJson
  | name :: path, .object members => .object (modifyFirst name
      (fun m => if path = [] then (name, item) else (m.1, replaceItemInObject item path m.2))
      members)
  | _, json => json

/-- The paths part at names that differ. -/
def Apart : List String → List String → Prop
  | a :: p, b :: q => sameName a b = false ∨ Apart p q
  | _, _ => False

instance : (p q : List String) → Decidable (Apart p q)
  | a :: p, b :: q =>
    have := instDecidableApart p q
    inferInstanceAs (Decidable (sameName a b = false ∨ Apart p q))
  | [], _ => inferInstanceAs (Decidable False)
  | _ :: _, [] => inferInstanceAs (Decidable False)

theorem sameName_refl (a : String) : sameName a a = true := beq_self_eq_true _

theorem sameName_congr {a b : String} (h : sameName a b = true) (c : String) :
    sameName c a = sameName c b := by
  have heq : toLower a = toLower b := eq_of_beq h
  rw [sameName, sameName, heq]

section

variable {name : String} {f : String × CJson → String × CJson}

/-- The changed member is the first one still. -/
theorem find_modifyFirst (hf : ∀ m, sameName m.1 name = true → sameName (f m).1 name = true)
    (ms : List (String × CJson)) :
    (modifyFirst name f ms).find? (fun m => sameName m.1 name) =
      (ms.find? fun m => sameName m.1 name).map f := by
  induction ms with
  | nil => rfl
  | cons m ms ih =>
    rw [modifyFirst]
    cases hm : sameName m.1 name with
    | true =>
      simp only [if_true, List.find?_cons, hf m hm, hm, Option.map_some]
    | false => simp only [Bool.false_eq_true, if_false, List.find?_cons, hm, ih]

/-- Other names do not see the change. -/
theorem find_modifyFirst_ne {other : String} (hne : sameName name other = false)
    (hf : ∀ m, sameName m.1 name = true → sameName (f m).1 name = true)
    (ms : List (String × CJson)) :
    (modifyFirst name f ms).find? (fun m => sameName m.1 other) =
      ms.find? fun m => sameName m.1 other := by
  have hother {a : String} (h : sameName a name = true) : sameName a other = false := by
    cases hsame : sameName a other with
    | false => rfl
    | true =>
      have heq : toLower name = toLower other := (eq_of_beq h).symm.trans (eq_of_beq hsame)
      rw [sameName, heq, beq_self_eq_true] at hne
      exact hne
  induction ms with
  | nil => rfl
  | cons m ms ih =>
    rw [modifyFirst]
    cases hm : sameName m.1 name with
    | true =>
      simp only [if_true, List.find?_cons, hother (hf m hm), hother hm]
    | false => simp only [Bool.false_eq_true, if_false, List.find?_cons, ih]

end

theorem get_object (name : String) (path : List String) (members : List (String × CJson)) :
    get (name :: path) (.object members) =
      (members.find? fun m => sameName m.1 name).bind fun m => get path m.2 := by
  rw [get, getObjectItem, Option.bind_map]
  rfl

/-- What a path leads to is in an object, under its first name. -/
theorem get_cons_isSome {name : String} {path : List String} {json : CJson}
    (h : (get (name :: path) json).isSome) : ∃ members m, json = .object members ∧
      (members.find? fun m => sameName m.1 name) = some m ∧ (get path m.2).isSome := by
  cases json with
  | object members =>
    rw [get_object] at h
    obtain ⟨item, hitem⟩ := Option.isSome_iff_exists.1 h
    obtain ⟨m, hfind, hm⟩ := Option.bind_eq_some_iff.1 hitem
    exact ⟨members, m, rfl, hfind, by rw [hm]; rfl⟩
  | string _ | number _ | other => cases h

/-- What a replacement does to the member on its path. -/
def change (item : CJson) (name : String) (path : List String) (m : String × CJson) :
    String × CJson :=
  if path = [] then (name, item) else (m.1, replaceItemInObject item path m.2)

theorem change_name {item : CJson} {name : String} {path : List String} (m : String × CJson)
    (h : sameName m.1 name = true) : sameName (change item name path m).1 name = true := by
  unfold change
  split
  · exact sameName_refl name
  · exact h

theorem replace_object (item : CJson) (name : String) (path : List String)
    (members : List (String × CJson)) : replaceItemInObject item (name :: path) (.object members) =
      .object (modifyFirst name (change item name path) members) := by
  rw [replaceItemInObject]
  rfl

/-- What was put at a path is found there. -/
theorem get_replace_same (item : CJson) {path : List String} {json : CJson} (hne : path ≠ [])
    (h : (get path json).isSome) : get path (replaceItemInObject item path json) = some item := by
  induction path generalizing json with
  | nil => exact absurd rfl hne
  | cons name path ih =>
    obtain ⟨members, m, rfl, hfind, hrest⟩ := get_cons_isSome h
    rw [replace_object, get_object, find_modifyFirst change_name, hfind]
    show get path (change item name path m).2 = some item
    unfold change
    split
    · next hnil => rw [hnil, get]
    · next hcons => exact ih hcons hrest

/-- A path that leads elsewhere does not see a replacement. -/
theorem get_replace_apart (item : CJson) {p q : List String} (h : Apart p q) (json : CJson) :
    get q (replaceItemInObject item p json) = get q json := by
  induction p generalizing q json with
  | nil => exact h.elim
  | cons a p ih =>
    cases q with
    | nil => exact h.elim
    | cons b q =>
    cases json with
    | string _ | number _ | other => rfl
    | object members =>
    rw [replace_object, get_object, get_object]
    cases hsame : sameName a b with
    | false => rw [find_modifyFirst_ne hsame change_name]
    | true =>
      have hrest : Apart p q := h.resolve_left (by simp [hsame])
      have hname : (fun m : String × CJson => sameName m.1 b) = fun m => sameName m.1 a :=
        funext fun m => (sameName_congr hsame m.1).symm
      rw [hname, find_modifyFirst change_name, Option.bind_map]
      refine Option.bind_congr fun m _ => ?_
      show get q (change item a p m).2 = get q m.2
      unfold change
      split
      · next hnil =>
        rw [hnil] at hrest
        exact hrest.elim
      · exact ih hrest m.2

/-- One replacement after another. -/
def replaceAll (items : List (List String × CJson)) (json : CJson) : CJson :=
  items.foldl (fun json i => replaceItemInObject i.2 i.1 json) json

theorem get_replaceAll_apart {items : List (List String × CJson)} {q : List String}
    (h : ∀ i ∈ items, Apart i.1 q) (json : CJson) : get q (replaceAll items json) = get q json := by
  induction items generalizing json with
  | nil => rfl
  | cons i items ih =>
    refine (ih (fun j hj => h j (List.mem_cons_of_mem _ hj)) _).trans ?_
    exact get_replace_apart i.2 (h i List.mem_cons_self) json

/-- Replacements at paths that part are all found, each at its path. -/
theorem get_replaceAll {items : List (List String × CJson)}
    (hapart : items.Pairwise fun i j => Apart i.1 j.1 ∧ Apart j.1 i.1) {json : CJson}
    (hthere : ∀ i ∈ items, i.1 ≠ [] ∧ (get i.1 json).isSome) {i : List String × CJson}
    (hi : i ∈ items) : get i.1 (replaceAll items json) = some i.2 := by
  induction items generalizing json with
  | nil => cases hi
  | cons j items ih =>
    obtain ⟨hj, hapart⟩ := List.pairwise_cons.1 hapart
    obtain ⟨hne, hsome⟩ := hthere j List.mem_cons_self
    show get i.1 (replaceAll items (replaceItemInObject j.2 j.1 json)) = some i.2
    rcases List.mem_cons.1 hi with rfl | hi
    · rw [get_replaceAll_apart fun k hk => (hj k hk).2]
      exact get_replace_same i.2 hne hsome
    · refine ih hapart (fun k hk => ?_) hi
      obtain ⟨hk₀, hk₁⟩ := hthere k (List.mem_cons_of_mem _ hk)
      exact ⟨hk₀, by rwa [get_replace_apart j.2 (hj k hk).1]⟩

/-! ## Names as they are spelled -/

/-- What a path leads to along members whose names are spelled like those of
the path, as other readers find it. -/
def spelled : List String → CJson → Option CJson
  | [], json => some json
  | name :: path, .object members =>
    (members.find? fun m => m.1 == name).bind fun m => spelled path m.2
  | _ :: _, _ => none

/-- The members that cJSON finds on the path are spelled like its names. -/
def spelledOut : List String → CJson → Bool
  | [], _ => true
  | name :: path, .object members =>
    (members.find? fun m => sameName m.1 name).any fun m => m.1 == name && spelledOut path m.2
  | _ :: _, _ => false

theorem spelledOut_cons {name : String} {path : List String} {json : CJson} :
    spelledOut (name :: path) json = true ↔ ∃ members item, json = .object members ∧
      (members.find? fun m => sameName m.1 name) = some (name, item) ∧
        spelledOut path item = true := by
  cases json with
  | object members =>
    rw [spelledOut, Option.any_eq_true]
    constructor
    · rintro ⟨⟨name', item⟩, hfind, hname⟩
      obtain ⟨heq, hitem⟩ := Bool.and_eq_true_iff.1 hname
      obtain rfl : name' = name := eq_of_beq heq
      exact ⟨members, item, rfl, hfind, hitem⟩
    · rintro ⟨_, item, heq, hfind, hitem⟩
      cases heq
      exact ⟨(name, item), hfind, by simp [hitem]⟩
  | string _ | number _ | other => simp [spelledOut]

/-- A member found without regard to case is the first of its own spelling. -/
theorem find_spelled {name : String} {item : CJson} {members : List (String × CJson)}
    (h : (members.find? fun m => sameName m.1 name) = some (name, item)) :
    (members.find? fun m => m.1 == name) = some (name, item) := by
  induction members with
  | nil => cases h
  | cons m members ih =>
    rw [List.find?_cons] at h ⊢
    cases hsame : sameName m.1 name with
    | true =>
      rw [hsame] at h
      obtain rfl : m = (name, item) := Option.some.inj h
      rw [beq_self_eq_true]
    | false =>
      rw [hsame] at h
      have hne : (m.1 == name) = false := by
        cases heq : m.1 == name with
        | false => rfl
        | true =>
          rw [eq_of_beq heq, sameName_refl] at hsame
          cases hsame
      rw [hne]
      exact ih h

theorem spelled_of_spelledOut {path : List String} {json : CJson}
    (h : spelledOut path json = true) : spelled path json = get path json := by
  induction path generalizing json with
  | nil => rfl
  | cons name path ih =>
    obtain ⟨members, item, rfl, hfind, hitem⟩ := spelledOut_cons.1 h
    rw [spelled, get_object, find_spelled hfind, hfind]
    exact ih hitem

/-- A replaced item has the name of its path. -/
theorem spelledOut_replace_same {path : List String} {json : CJson} (item : CJson)
    (h : spelledOut path json = true) :
    spelledOut path (replaceItemInObject item path json) = true := by
  induction path generalizing json with
  | nil => exact h
  | cons name path ih =>
    obtain ⟨members, old, rfl, hfind, hitem⟩ := spelledOut_cons.1 h
    rw [replace_object]
    have hchanged := find_modifyFirst (f := change item name path) change_name members
    rw [hfind] at hchanged
    refine spelledOut_cons.2 ⟨_, _, rfl, hchanged.trans (congrArg some (Prod.ext ?_ rfl)), ?_⟩
    · show (change item name path (name, old)).1 = name
      unfold change
      split <;> rfl
    · show spelledOut path (change item name path (name, old)).2 = true
      unfold change
      split
      · next hnil => rw [hnil]; rfl
      · exact ih hitem

theorem spelledOut_replace_apart {p q : List String} (item : CJson) (hapart : Apart p q)
    {json : CJson} (h : spelledOut q json = true) :
    spelledOut q (replaceItemInObject item p json) = true := by
  induction p generalizing q json with
  | nil => exact hapart.elim
  | cons a p ih =>
    cases q with
    | nil => exact hapart.elim
    | cons b q =>
    obtain ⟨members, old, rfl, hfind, hitem⟩ := spelledOut_cons.1 h
    rw [replace_object]
    cases hsame : sameName a b with
    | false =>
      exact spelledOut_cons.2 ⟨_, old, rfl,
        (find_modifyFirst_ne hsame change_name members).trans hfind, hitem⟩
    | true =>
      have hrest : Apart p q := hapart.resolve_left (by simp [hsame])
      have hname : (fun m : String × CJson => sameName m.1 b) = fun m => sameName m.1 a :=
        funext fun m => (sameName_congr hsame m.1).symm
      have hchanged := find_modifyFirst (f := change item a p) change_name members
      rw [← hname, hfind] at hchanged
      have hgoesOn : change item a p (b, old) = (b, replaceItemInObject item p old) := by
        unfold change
        split
        · next hnil =>
          rw [hnil] at hrest
          exact hrest.elim
        · rfl
      exact spelledOut_cons.2 ⟨_, _, rfl, hchanged.trans (congrArg some hgoesOn), ih hrest hitem⟩

/-- Replacements at the path and at paths that part from it leave it spelled out. -/
theorem spelledOut_replaceAll {items : List (List String × CJson)} {q : List String}
    (h : ∀ i ∈ items, i.1 = q ∨ Apart i.1 q) {json : CJson} (hq : spelledOut q json = true) :
    spelledOut q (replaceAll items json) = true := by
  induction items generalizing json with
  | nil => exact hq
  | cons i items ih =>
    refine ih (fun j hj => h j (List.mem_cons_of_mem _ hj)) ?_
    rcases h i List.mem_cons_self with rfl | hapart
    · exact spelledOut_replace_same i.2 hq
    · exact spelledOut_replace_apart i.2 hapart hq

end CJson

end LogisticService
