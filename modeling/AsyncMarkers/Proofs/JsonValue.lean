import AsyncMarkers.Tree.Decode
import Mathlib.Logic.Basic

/-!
# JSON values, their levels and their scalars

What decoders have to know of the values that encoders make, whatever is encoded.

* **Scalars.** A value that has been written and read again may come with other numbers, and with
  texts in place of absent ones. `Json.respell` changes the scalars of a value in such a way.
* **Levels.** How many levels a value has, in terms of its parts (`Json.depth_record_le`,
  `Json.depth_array_le`).
* **Records.** A record whose keys are distinct has in each slot what stands under its key
  (`Json.slots?_record`), so a field that is left out comes back as the decoder's default.
* **Restoring.** A decoder `Restores` what has been encoded if it needs exactly as many levels as
  the value has, and gets along with its new scalars. This carries over to lists (`mapM_restores`)
  and to parts that may be absent (`option?_restores`).
-/

namespace AsyncMarkers

/-! ### Values -/

namespace Json

/-- What holds of a value as soon as it holds of its items and members holds of every value. -/
theorem parts_induction {P : Json → Prop} (null : P .null) (bool : ∀ b, P (.bool b))
    (number : ∀ x, P (.number x)) (string : ∀ s, P (.string s))
    (array : ∀ items, (∀ item ∈ items, P item) → P (.array items))
    (object : ∀ members : List (Option String × Json), (∀ m ∈ members, P m.2) → P (.object members))
    (j : Json) : P j := by
  refine @Json.rec P (fun items => ∀ item ∈ items, P item) (fun members => ∀ m ∈ members, P m.2)
    (fun m => P m.2) null bool number string array object ?_ ?_ ?_ ?_ ?_ j
  · -- an empty list has nothing to prove; otherwise the first member and the rest are known
    simp
  · intro item items h_item h_items
    exact List.forall_mem_cons.2 ⟨h_item, h_items⟩
  · simp
  · intro m members h_m h_members
    exact List.forall_mem_cons.2 ⟨h_m, h_members⟩
  · intro key value h_value
    exact h_value

/-- What becomes of scalars on the way. The small natural numbers that positions are made of
stay. -/
structure Respelling where
  number : Number → Number
  /-- What takes the place of a text that is absent. -/
  absent : Option String
  number_nat : ∀ n : Nat, n < UInt32.size → number (.integer n) = .integer n

/-- Scalars that stay as they are. -/
def Respelling.id : Respelling := ⟨fun x => x, none, fun _ _ => rfl⟩

mutual

/-- The value with every number changed, and with every absent text and key filled in. -/
def respell (r : Respelling) : Json → Json
  | .null => .null
  | .bool b => .bool b
  | .number x => .number (r.number x)
  | .string s => .string (s.or r.absent)
  | .array items => .array (respellItems r items)
  | .object members => .object (respellMembers r members)

/-- The items of an array, respelled one by one. -/
def respellItems (r : Respelling) : List Json → List Json
  | [] => []
  | item :: items => item.respell r :: respellItems r items

/-- The members of an object, respelled one by one, with their keys filled in. -/
def respellMembers (r : Respelling) :
    List (Option String × Json) → List (Option String × Json)
  | [] => []
  | (key, value) :: members => (key.or r.absent, value.respell r) :: respellMembers r members

end

section Respell

variable (r : Respelling)

/-- Respelling items is respelling each of them. -/
theorem respellItems_eq (items : List Json) :
    respellItems r items = items.map (respell r) := by
  induction items with
  | nil => rfl
  | cons item items ih => rw [respellItems, ih, List.map_cons]

/-- Respelling members is respelling the value of each and filling in its key. -/
theorem respellMembers_eq (members : List (Option String × Json)) :
    respellMembers r members = members.map fun m => (m.1.or r.absent, m.2.respell r) := by
  induction members with
  | nil => rfl
  | cons m members ih => rw [respellMembers, ih, List.map_cons]

@[simp] theorem respell_null : respell r .null = .null := rfl

@[simp] theorem respell_bool (b : Bool) : respell r (.bool b) = .bool b := rfl

@[simp] theorem respell_number (x : Number) : respell r (.number x) = .number (r.number x) := rfl

@[simp] theorem respell_text (s : String) : (text s).respell r = text s := rfl

@[simp] theorem respell_array (items : List Json) :
    (Json.array items).respell r = .array (items.map (respell r)) := by
  rw [respell, respellItems_eq]

/-- An object is respelled member by member. -/
theorem respell_object (members : List (Option String × Json)) :
    (Json.object members).respell r =
      .object (members.map fun m => (m.1.or r.absent, m.2.respell r)) := by
  rw [respell, respellMembers_eq]

/-- A record has all its keys, so none is filled in. -/
@[simp] theorem respell_record (members : List (String × Json)) :
    (record members).respell r = record (members.map fun m => (m.1, m.2.respell r)) := by
  simp only [record, respell_object, List.map_map, Function.comp_def, Option.some_or]

@[simp] theorem respell_tagged (name : String) (payload : Json) :
    (tagged name payload).respell r = tagged name (payload.respell r) := rfl

/-- Respelling makes no value missing. -/
theorem respell_eq_null {j : Json} : j.respell r = .null ↔ j = .null := by
  cases j <;> simp [respell]

/-- Respelling that changes no scalar changes nothing. -/
theorem respell_id (j : Json) : j.respell .id = j := by
  induction j using parts_induction with
  | null => rfl
  | bool b => rfl
  | number x => rfl
  | string s => rw [respell, Respelling.id, Option.or_none]
  | array items ih => rw [respell_array, List.map_congr_left ih, List.map_id']
  | object members ih =>
    -- a member is its key and its value, and neither changes
    have h : ∀ m ∈ members, (m.1.or Respelling.id.absent, m.2.respell .id) = m := by
      intro m h_m
      rw [ih m h_m, Respelling.id, Option.or_none]
    rw [respell_object, List.map_congr_left h, List.map_id']

end Respell

/-! ### Levels -/

/-- Items are as deep as the deepest of them. -/
theorem depthOfItems_le {items : List Json} {n : Nat} :
    depthOfItems items ≤ n ↔ ∀ item ∈ items, item.depth ≤ n := by
  induction items with
  | nil => simp [depthOfItems]
  | cons item items ih => rw [depthOfItems, Nat.max_le, ih, List.forall_mem_cons]

/-- Members are as deep as the deepest of them. -/
theorem depthOfMembers_le {members : List (Option String × Json)} {n : Nat} :
    depthOfMembers members ≤ n ↔ ∀ m ∈ members, m.2.depth ≤ n := by
  induction members with
  | nil => simp [depthOfMembers]
  | cons m members ih => rw [depthOfMembers, Nat.max_le, ih, List.forall_mem_cons]

@[simp] theorem depth_null : Json.null.depth = 0 := rfl

@[simp] theorem depth_bool (b : Bool) : (Json.bool b).depth = 0 := rfl

@[simp] theorem depth_text (s : String) : (text s).depth = 0 := rfl

@[simp] theorem depth_number (x : Number) : (Json.number x).depth = 0 := rfl

@[simp] theorem depth_nat (n : Nat) : (nat n).depth = 0 := rfl

@[simp] theorem depth_tagged (name : String) (payload : Json) :
    (tagged name payload).depth = payload.depth + 1 := by
  simp [tagged, depth, depthOfMembers]

/-- The items of an array are one level below it. -/
@[simp] theorem depth_array_le {items : List Json} {n : Nat} :
    (Json.array items).depth ≤ n + 1 ↔ ∀ item ∈ items, item.depth ≤ n := by
  rw [depth, Nat.add_le_add_iff_right, depthOfItems_le]

@[simp] theorem depth_record_le {members : List (String × Json)} {n : Nat} :
    (record members).depth ≤ n + 1 ↔ ∀ m ∈ members, m.2.depth ≤ n := by
  rw [record, depth, Nat.add_le_add_iff_right, depthOfMembers_le, List.forall_mem_map]

@[simp] theorem depth_array_ne_zero {items : List Json} : (Json.array items).depth ≠ 0 := by
  simp [depth]

@[simp] theorem depth_record_ne_zero {members : List (String × Json)} :
    (record members).depth ≠ 0 := by
  simp [depth, record]

/-- A list of values of some depth is one level deeper. -/
theorem depth_list_le {α : Type} {encode : α → Json} {n : Nat} (h : ∀ a, (encode a).depth ≤ n)
    (l : List α) : (list encode l).depth ≤ n + 1 := by
  rw [Json.list, depth_array_le, List.forall_mem_map]
  exact fun a _ => h a

/-! ### Slots, cases and scalars -/

/-- Among members with distinct keys, there is one for a key at most. -/
theorem filter_key_of_nodup {members : List (String × Json)} (h : (members.map Prod.fst).Nodup)
    (key : String) :
    ((members.map fun m => (some m.1, m.2)).filter (·.1 == some key)).map Prod.snd =
      (members.lookup key).toList := by
  induction members with
  | nil => rfl
  | cons m members ih =>
    obtain ⟨first, value⟩ := m
    obtain ⟨h_first, h_rest⟩ := List.nodup_cons.1 h
    by_cases h_key : key = first
    · subst h_key
      -- The key does not come a second time.
      have h_absent : (members.map fun m => (some m.1, m.2)).filter (·.1 == some key) = [] := by
        rw [List.filter_eq_nil_iff, List.forall_mem_map]
        intro m h_m h_eq
        have h_eq : m.1 = key := by simpa using h_eq
        exact h_first (List.mem_map.2 ⟨m, h_m, h_eq⟩)
      simp [h_absent]
    · -- the first member is not the one that is looked for
      have h_beq : (key == first) = false := beq_eq_false_iff_ne.2 h_key
      simpa [List.lookup_cons, h_beq, Ne.symm h_key] using ih h_rest

/-- What a field finds in a record with distinct keys is what stands under its key. -/
theorem member?_of_nodup {members : List (String × Json)} (h : (members.map Prod.fst).Nodup)
    {field : Field} (h_required : field.presence = .required → field.key ∈ members.map Prod.fst) :
    member? (members.map fun m => (some m.1, m.2)) field = some (members.lookup field.key) := by
  have h_filter := filter_key_of_nodup h field.key
  unfold member?
  cases h_lookup : members.lookup field.key with
  | none =>
    rw [h_lookup, Option.toList_none, List.map_eq_nil_iff] at h_filter
    -- a field that has to be there is not missing
    have h_optional : field.presence ≠ .required := by
      intro h_presence
      obtain ⟨m, h_m, h_key⟩ := List.mem_map.1 (h_required h_presence)
      have h_ne := List.lookup_eq_none_iff.1 h_lookup m h_m
      simp [h_key] at h_ne
    rw [h_filter]
    exact if_neg h_optional
  | some value =>
    rw [h_lookup, Option.toList_some, List.map_eq_singleton_iff] at h_filter
    obtain ⟨m, h_filter, rfl⟩ := h_filter
    rw [h_filter]

@[simp] theorem Field.key_required (key : String) : (Field.required key).key = key := rfl

@[simp] theorem Field.key_optional (key : String) : (Field.optional key).key = key := rfl

@[simp] theorem Field.key_defaulted (key : String) : (Field.defaulted key).key = key := rfl

@[simp] theorem Field.presence_required (key : String) :
    (Field.required key).presence = .required := rfl

@[simp] theorem Field.presence_optional (key : String) :
    (Field.optional key).presence = .optional := rfl

@[simp] theorem Field.presence_defaulted (key : String) :
    (Field.defaulted key).presence = .defaulted := rfl

/-- A record whose keys are distinct has in each slot what stands under its key. -/
@[simp] theorem slots?_record {fields : List Field} {members : List (String × Json)}
    (h : (members.map Prod.fst).Nodup)
    (h_required : ∀ field ∈ fields, field.presence = .required → field.key ∈ members.map Prod.fst) :
    slots? fields (record members) = some (fields.map fun field => members.lookup field.key) := by
  have h_keys : (members.map fun m => (some m.1, m.2)).all (·.1.isSome) := by simp
  rw [record, slots?, if_pos h_keys]
  -- one field after the other, each with a slot of its own
  induction fields with
  | nil => rfl
  | cons field fields ih =>
    obtain ⟨h_field, h_fields⟩ := List.forall_mem_cons.1 h_required
    rw [List.mapM_cons, member?_of_nodup h h_field, ih h_fields]
    rfl

@[simp] theorem variant?_tagged (name : String) (payload : Json) :
    (tagged name payload).variant? = some (name, some payload) := rfl

@[simp] theorem bareCase?_text (n : Nat) (name : String) :
    (text name).bareCase? n = some name := rfl

/-- A case with a payload is not read as one without. -/
theorem bareCase?_tagged_of_ne_null {n : Nat} {name : String} {payload : Json}
    (h : payload ≠ .null) : (tagged name payload).bareCase? n = none := by
  cases payload with
  | null => exact absurd rfl h
  | bool b | number x | string s | array items | object members => rfl

/-- If a case can be read without its payload, it is still the case of that name. -/
theorem bareCase?_tagged {n : Nat} {name case : String} {payload : Json}
    (h : (tagged name payload).bareCase? n = some case) : case = name := by
  cases payload <;> simp_all [bareCase?]

@[simp] theorem items?_array (items : List Json) : (Json.array items).items? = some items := rfl

@[simp] theorem text?_text (s : String) : (text s).text? = some s := rfl

@[simp] theorem text_ne_null (s : String) : text s ≠ .null := by simp [text]

@[simp] theorem word32?_nat (w : UInt32) : (nat w.toNat).word32? = some w := by
  have h : w.toNat < UInt32.size := w.toNat_lt
  simp [word32?, nat, natBelow?, h]

@[simp] theorem option?_null {α : Type} {decode? : Json → Option α} :
    option? decode? .null = some none := rfl

/-- A value that is there is decoded as it is. -/
theorem option?_of_ne_null {α : Type} {decode? : Json → Option α} {j : Json} (h : j ≠ .null) :
    option? decode? j = (decode? j).map some := by
  cases j with
  | null => exact absurd rfl h
  | bool b | number x | string s | array items | object members => rfl

end Json

open Json

/-! ### Lists and parts that may be absent -/

/-- A decoder makes `a` of a value with other scalars exactly if it may open as many levels as the
value has, and what it has to read is `legible`. -/
def Restores {α : Type} (r : Respelling) (decode? : Nat → Json → Option α) (j : Json) (a : α)
    (legible : Prop) : Prop :=
  ∀ n, decode? n (j.respell r) = some a ↔ j.depth ≤ n ∧ legible

section Restores

variable {α : Type} {r : Respelling} {decode? : Nat → Json → Option α} {encode : α → Json}
  {legible : α → Prop}

/-- Reading a list back means reading each member back. -/
theorem mapM_eq_some_self_iff {g : α → Option α} {l : List α} :
    l.mapM g = some l ↔ ∀ a ∈ l, g a = some a := by
  induction l with
  | nil => simp
  | cons a l ih =>
    rw [List.mapM_cons, List.forall_mem_cons, ← ih]
    simp [Option.bind_eq_some_iff]

/-- A list comes back exactly if each member does. -/
theorem mapM_restores {l : List α} (h : ∀ a ∈ l, Restores r decode? (encode a) a (legible a))
    (n : Nat) :
    l.mapM (decode? n ∘ respell r ∘ encode) = some l ↔
      (∀ a ∈ l, (encode a).depth ≤ n) ∧ ∀ a ∈ l, legible a := by
  calc l.mapM (decode? n ∘ respell r ∘ encode) = some l
      ↔ ∀ a ∈ l, (encode a).depth ≤ n ∧ legible a := by
        rw [mapM_eq_some_self_iff]
        exact forall₂_congr fun a h_a => h a h_a n
    _ ↔ (∀ a ∈ l, (encode a).depth ≤ n) ∧ ∀ a ∈ l, legible a := by
        simp only [imp_and, forall_and]

/-- A part that may be missing comes back if it does where it is there. -/
theorem option?_restores {o : Option α} (h_null : ∀ a, encode a ≠ .null)
    (h : ∀ a ∈ o, Restores r decode? (encode a) a (legible a)) :
    Restores r (fun n => Json.option? (decode? n)) (orNull encode o) o (∀ a ∈ o, legible a) := by
  intro n
  cases o with
  | none => simp [orNull, Json.option?]
  | some a =>
    -- a value that is there is not taken for a missing one after it has been respelled
    have h_some : (encode a).respell r ≠ .null := mt (respell_eq_null r).1 (h_null a)
    simpa [orNull, option?_of_ne_null h_some] using h a rfl n

/-- What has to be legible may be put in other words. -/
theorem Restores.congr {j : Json} {a : α} {p q : Prop} (h : p ↔ q)
    (h_a : Restores r decode? j a p) : Restores r decode? j a q :=
  fun n => (h_a n).trans (and_congr_right fun _ => h)

/-- What a value is made into comes back if the value does. -/
theorem Restores.map {β : Type} {f : α → β} (h_f : Function.Injective f) {j : Json} {a : α}
    {p : Prop} (h : Restores r decode? j a p) :
    Restores r (fun n j => (decode? n j).map f) j (f a) p := by
  intro n
  rw [← h n]
  exact (Option.map_injective h_f).eq_iff (b := some a)

/-- The name of a case comes back at any level. -/
theorem name_restores {ofName? : String → Option α} {name : String} {a : α}
    (h : ofName? name = some a) :
    Restores r (fun n j => do ofName? (← j.bareCase? n)) (text name) a True := by
  intro n
  simp [h]

/-- An array of encoded values comes back if each of them does. -/
theorem list_restores {items : List Json} {l : List α} (h_items : items = l.map encode)
    (h : ∀ a ∈ l, Restores r decode? (encode a) a (legible a)) :
    Restores r (decodeList? decode?) (.array items) l (∀ a ∈ l, legible a) := by
  subst h_items
  intro n
  cases n with
  | zero => simp [decodeList?]
  | succ n => simp [decodeList?, mapM_restores h]

/-- What is made of the items of an array comes back if they do. -/
theorem Restores.ofList {β : Type} {decode₁? : Nat → Json → Option β} {f : List β → α}
    {items : List Json} {l : List β} {p : Prop}
    (h : Restores r (decodeList? decode₁?) (.array items) l p) (h_f : Function.Injective f)
    (h_zero : decode? 0 ((Json.array items).respell r) = none)
    (h_succ : ∀ n, decode? (n + 1) ((Json.array items).respell r) = do
      return f (← (← ((Json.array items).respell r).items?).mapM (decode₁? n))) :
    Restores r decode? (.array items) (f l) p := by
  intro n
  cases n with
  | zero =>
    rw [h_zero]
    simp
  | succ n =>
    -- decoding the list and then making something of it is decoding that
    have h_read : decode? (n + 1) ((Json.array items).respell r) =
        (decodeList? decode₁? (n + 1) ((Json.array items).respell r)).map f := by
      rw [h_succ, Option.map_eq_bind]
      exact (Option.bind_assoc _ _ _).symm
    rw [h_read]
    exact h.map h_f (n + 1)

/-- Opens an object with a single member. -/
def decodeTagged? (decode? : Nat → Json → Option α) : Nat → Json → Option α
  | 0, _ => none
  | n + 1, j => do decode? n (← (← j.variant?).2)

/-- An object with a single member comes back if that does. -/
theorem Restores.tagged {j : Json} {a : α} {p : Prop} (h : Restores r decode? j a p)
    (name : String) : Restores r (decodeTagged? decode?) (tagged name j) a p := by
  intro n
  cases n with
  | zero => simp [decodeTagged?]
  | succ n => simpa [decodeTagged?] using h n

section Records

variable {β γ δ : Type} {decode₁? : Nat → Json → Option β} {decode₂? : Nat → Json → Option γ}
  {decode₃? : Nat → Json → Option δ} {j₁ j₂ j₃ : Json} {b : β} {c : γ} {d : δ} {p q s : Prop}
  {x y z : String} {members : List (String × Json)}

/-- A record takes one level, and leaves the others to its members. -/
theorem restores_record {a : α} (h_zero : decode? 0 ((record members).respell r) = none)
    (h_succ : ∀ n, decode? (n + 1) ((record members).respell r) = some a ↔
      (∀ m ∈ members, m.2.depth ≤ n) ∧ p) :
    Restores r decode? (record members) a p := by
  intro n
  cases n with
  | zero =>
    rw [h_zero]
    simp
  | succ n => rw [h_succ, depth_record_le]

/-- A record comes back if its two members do, in whatever order they are read. -/
theorem Restores.record₂ {f : β → γ → α}
    (h_f : ∀ {b c b' c'}, f b c = f b' c' → b = b' ∧ c = c')
    (h_b : Restores r decode₁? j₁ b p) (h_c : Restores r decode₂? j₂ c q)
    (h_members : members.Perm [(x, j₁), (y, j₂)])
    (h_zero : decode? 0 ((record members).respell r) = none)
    (h_succ : ∀ n, decode? (n + 1) ((record members).respell r) = do
      return f (← decode₁? n (j₁.respell r)) (← decode₂? n (j₂.respell r))) :
    Restores r decode? (record members) (f b c) (p ∧ q) := by
  refine restores_record h_zero fun n => ?_
  -- what is made of the members tells them, so that nothing else can have been read
  have h_read : decode? (n + 1) ((record members).respell r) = some (f b c) ↔
      decode₁? n (j₁.respell r) = some b ∧ decode₂? n (j₂.respell r) = some c := by
    simp only [h_succ, Option.bind_eq_bind, Option.bind_eq_some_iff, Option.pure_def,
      Option.some.injEq]
    constructor
    · rintro ⟨b', h_b', c', h_c', h_eq⟩
      obtain ⟨rfl, rfl⟩ := h_f h_eq
      exact ⟨h_b', h_c'⟩
    · rintro ⟨h_b', h_c'⟩
      exact ⟨b, h_b', c, h_c', rfl⟩
  rw [h_read, h_b n, h_c n]
  simp [h_members.mem_iff, and_and_and_comm]

/-- A record comes back if its three members do. -/
theorem Restores.record₃ {f : β → γ → δ → α}
    (h_f : ∀ {b c d b' c' d'}, f b c d = f b' c' d' → b = b' ∧ c = c' ∧ d = d')
    (h_b : Restores r decode₁? j₁ b p) (h_c : Restores r decode₂? j₂ c q)
    (h_d : Restores r decode₃? j₃ d s)
    (h_zero : decode? 0 ((record [(x, j₁), (y, j₂), (z, j₃)]).respell r) = none)
    (h_succ : ∀ n, decode? (n + 1) ((record [(x, j₁), (y, j₂), (z, j₃)]).respell r) = do
      return f (← decode₁? n (j₁.respell r)) (← decode₂? n (j₂.respell r))
        (← decode₃? n (j₃.respell r))) :
    Restores r decode? (record [(x, j₁), (y, j₂), (z, j₃)]) (f b c d) (p ∧ q ∧ s) := by
  refine restores_record h_zero fun n => ?_
  have h_read : decode? (n + 1) ((record [(x, j₁), (y, j₂), (z, j₃)]).respell r) =
      some (f b c d) ↔ decode₁? n (j₁.respell r) = some b ∧ decode₂? n (j₂.respell r) = some c ∧
        decode₃? n (j₃.respell r) = some d := by
    simp only [h_succ, Option.bind_eq_bind, Option.bind_eq_some_iff, Option.pure_def,
      Option.some.injEq]
    constructor
    · rintro ⟨b', h_b', c', h_c', d', h_d', h_eq⟩
      obtain ⟨rfl, rfl, rfl⟩ := h_f h_eq
      exact ⟨h_b', h_c', h_d'⟩
    · rintro ⟨h_b', h_c', h_d'⟩
      exact ⟨b, h_b', c, h_c', d, h_d', rfl⟩
  rw [h_read, h_b n, h_c n, h_d n]
  simp [and_and_and_comm]

end Records

/-- Lists of values that need no more than some levels come back with one level more. -/
theorem decodeList?_list {n : Nat} (h : ∀ a, decode? n (encode a) = some a) (l : List α) :
    decodeList? decode? (n + 1) (list encode l) = some l := by
  simp [decodeList?, Json.list, mapM_eq_some_self_iff, h]

end Restores

end AsyncMarkers
