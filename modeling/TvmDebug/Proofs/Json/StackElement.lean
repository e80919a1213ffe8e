import TvmDebug.Proofs.Json.Records
import TvmDebug.Trace.Form
/-! # The JSON form of stack elements

A stack element nests as deep as its tuples do, two levels for each. It is read back from its form
with one unit of fuel for each tuple (`decode?_toJson`). Conversely an element that is read has a
form that nests no deeper than what it was read from (`depth_toJson_of_decode?`), whichever way its
tuples were written. -/
set_option autoImplicit false

namespace TvmDebug.StackElement

open Json

/-- A property that a tuple has when its items have it holds of every element. -/
theorem induction_items {P : StackElement → Prop} (flat : ∀ e, (∀ items, e ≠ tuple items) → P e)
    (tuple : ∀ items, (∀ e ∈ items, P e) → P (tuple items)) (e : StackElement) : P e := by
  refine @StackElement.rec P (fun es => ∀ e ∈ es, P e) (flat _ nofun) (flat _ nofun)
    (fun _ => flat _ nofun) (fun _ => flat _ nofun) (fun _ => flat _ nofun)
    (fun _ => flat _ nofun) (fun _ => flat _ nofun) tuple (fun _ => flat _ nofun) ?_ ?_ e
  · nofun
  · intro e es he hes
    exact List.forall_mem_cons.2 ⟨he, hes⟩

theorem array_itemsToJson (es : List StackElement) :
    Json.array (itemsToJson es) = ofList toJson es := by
  have hmap : itemsToJson es = es.map toJson := by
    induction es with
    | nil => rw [itemsToJson, List.map_nil]
    | cons e es ih => rw [itemsToJson, ih, List.map_cons]
  rw [hmap, ofList]

/-! ## Writing -/

theorem isWritten_toJson (e : StackElement) : IsWritten e.toJson := by
  induction e using induction_items with
  | flat e h =>
    cases e with
    | tuple items => exact absurd rfl (h items)
    | _ => simp [toJson, isWritten_ofFields, isWritten_ofString]
  | tuple items ih =>
    have hitems := isWritten_ofList ih
    rw [toJson, array_itemsToJson]
    exact isWritten_ofFields (by simp [isWritten_ofString, hitems])

theorem depth_toJson_flat {e : StackElement} (h : ∀ items, e ≠ tuple items) :
    e.toJson.depth = 1 := by
  cases e with
  | tuple items => exact absurd rfl (h items)
  | _ => rfl

theorem depth_toJson_tuple (items : List StackElement) :
    (tuple items).toJson.depth = depthItems (items.map toJson) + 2 := by
  rw [toJson, array_itemsToJson]
  simp [ofFields, depth, depthMembers, ofList]

/-! ## Reading what was written -/

@[simp] theorem kind?_ofString (inTuple : Bool) (s : String) :
    kind? inTuple (ofString s) = some s := text?_ofString s

theorem field?_ofFields {α : Type} {fields : List (String × Json)}
    (h : (fields.map Prod.fst).Nodup) (name : String) (f : Json → Option α) :
    field? name f (ofFields fields) = (fields.lookup name).bind f := by
  rw [field?, fields?_ofFields h]
  rfl

theorem decode?_toJson (e : StackElement) {fuel : Nat} (inTuple : Bool)
    (h : e.toJson.depth ≤ fuel) : decode? fuel inTuple e.toJson = some e := by
  induction e using induction_items generalizing fuel inTuple with
  | flat e hflat =>
    rw [depth_toJson_flat hflat] at h
    obtain ⟨fuel, rfl⟩ : ∃ n, fuel = n + 1 := ⟨fuel - 1, by omega⟩
    cases e with
    | tuple items => exact absurd rfl (hflat items)
    | _ =>
      rw [decode?, toJson, tagged?_ofFields (by simp), kind?_ofString]
      simp [field?_ofFields, List.lookup_cons]
  | tuple items ih =>
    rw [depth_toJson_tuple] at h
    obtain ⟨fuel, rfl⟩ : ∃ n, fuel = n + 1 := ⟨fuel - 1, by omega⟩
    have hitems : ∀ e ∈ items, decode? fuel true e.toJson = some e := by
      intro e he
      have hdepth : depthItems (items.map toJson) ≤ fuel := by omega
      exact ih e he true (depthItems_le_iff.1 hdepth _ (List.mem_map_of_mem he))
    rw [decode?, toJson, array_itemsToJson, tagged?_ofFields (by simp), kind?_ofString]
    simp [field?_ofFields, List.lookup_cons, list?_ofList hitems]

theorem ofJson?_toJson {e : StackElement} {room : Nat} (h : e.toJson.depth ≤ room) :
    ofJson? room e.toJson = some e := by
  rw [ofJson?, isSpelledOut_of_isWritten (isWritten_toJson e), decide_eq_true h]
  exact decode?_toJson e false h

theorem ofJson?_eq_none {j : Json} {room : Nat} (h : room < j.depth) : ofJson? room j = none := by
  rw [ofJson?, decide_eq_false (Nat.not_le.2 h)]
  rfl

/-! ## The form of what was read -/

theorem exists_of_field? {α : Type} {name : String} {f : Json → Option α} {j : Json} {y : α}
    (h : field? name f j = some y) : ∃ x, x.depth + 1 ≤ j.depth ∧ f x = some y := by
  rw [field?, Option.bind_eq_bind, Option.bind_eq_some_iff] at h
  obtain ⟨fields, hfields, h⟩ := h
  split at h
  · next field =>
    obtain ⟨x, rfl, hx⟩ := Option.bind_eq_some_iff.1 h
    exact ⟨x, depth_le_of_fields? hfields List.mem_cons_self, hx⟩
  · cases h

theorem exists_of_decode?_tuple {fuel : Nat} {inTuple : Bool} {j : Json}
    {items : List StackElement} (h : decode? (fuel + 1) inTuple j = some (tuple items)) :
    ∃ kind fields, j.tagged? "type" (kind? inTuple) = some (kind, fields) ∧
      field? "items" (list? (decode? fuel true)) fields = some items := by
  rw [decode?, Option.bind_eq_bind, Option.bind_eq_some_iff] at h
  obtain ⟨⟨kind, fields⟩, htagged, hkind⟩ := h
  dsimp only at hkind
  split at hkind
  case h_8 =>
    obtain ⟨items', hfield, hitems⟩ := Option.map_eq_some_iff.1 hkind
    obtain rfl := tuple.inj hitems
    exact ⟨_, fields, htagged, hfield⟩
  all_goals simp at hkind

theorem one_le_depth_of_decode? {fuel : Nat} {inTuple : Bool} {j : Json} {e : StackElement}
    (h : decode? fuel inTuple j = some e) : 1 ≤ j.depth := by
  cases fuel with
  | zero =>
    rw [decode?] at h
    cases h
  | succ fuel =>
    rw [decode?, Option.bind_eq_bind, Option.bind_eq_some_iff] at h
    obtain ⟨⟨kind, fields⟩, htagged, -⟩ := h
    obtain ⟨hpos, hle⟩ := depth_of_tagged? htagged
    exact Nat.le_trans hpos hle

/-- Whichever way its tuples were written, an element nests no deeper in its form. -/
theorem depth_toJson_of_decode? {fuel : Nat} {inTuple : Bool} {j : Json} {e : StackElement}
    (h : decode? fuel inTuple j = some e) : e.toJson.depth ≤ j.depth := by
  -- The induction is on the element: the fuel does not say how deep the value nests.
  induction e using induction_items generalizing fuel inTuple j with
  | flat e hflat =>
    rw [depth_toJson_flat hflat]
    exact one_le_depth_of_decode? h
  | tuple items ih =>
    cases fuel with
    | zero =>
      rw [decode?] at h
      cases h
    | succ fuel =>
      obtain ⟨kind, fields, htagged, hfield⟩ := exists_of_decode?_tuple h
      obtain ⟨-, hfields⟩ := depth_of_tagged? htagged
      obtain ⟨x, hx, hlist⟩ := exists_of_field? hfield
      obtain ⟨n, hn, hitems⟩ := exists_of_list? hlist
      have hdepth : depthItems (items.map toJson) ≤ n := by
        refine depthItems_le_iff.2 (List.forall_mem_map.2 fun e he => ?_)
        obtain ⟨item, hitem, hdecode⟩ := hitems e he
        exact Nat.le_trans (ih e he hdecode) hitem
      rw [depth_toJson_tuple]
      omega

theorem depth_toJson_of_ofJson? {room : Nat} {j : Json} {e : StackElement}
    (h : ofJson? room j = some e) : e.toJson.depth ≤ room := by
  rw [ofJson?, Option.ite_none_right_eq_some, Bool.and_eq_true, decide_eq_true_eq] at h
  exact Nat.le_trans (depth_toJson_of_decode? h.2) h.1.1

end TvmDebug.StackElement
