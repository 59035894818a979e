/-
What values read back as. A repository stores a value in its normal
form: the value that a reader of the stored form gets. Values that were
read are in normal form already, and a property that keeps a value shows
its normal form. Binaries and objects are left out of the last, which
are stored as content of their own.
-/
import ContentProperties.Proofs.Map.NodeWrites

namespace ContentProperties

-- ======================================================== normal forms

/-- What a value that is no array reads back as once it was stored. -/
def Value.normalItem? (v : Value) : Option Value :=
  (StoredValue.ofPlain? v).map StoredValue.toValue

/-- What a value reads back as once it was stored, if it can be: an array
item by item. Objects are left out, which are stored as binaries. -/
def Value.normalForm? : Value → Option Value
  | .array items => (items.mapM normalItem?).map .array
  | v => v.normalItem?

mutual

/-- Whether a value holds content to be stored apart: it is a binary or
an object, or an array that holds some. -/
def Value.holdsContent : Value → Bool
  | .binary _ | .object _ => true
  | .array items => anyHoldsContent items
  | _ => false

/-- Whether one of the values holds content. -/
def Value.anyHoldsContent : List Value → Bool
  | [] => false
  | v :: rest => v.holdsContent || anyHoldsContent rest

end

/-- Items that all have images have them as a list. -/
theorem mapM_of_forall₂ {α β : Type} {f : α → Option β} {as : List α}
    {bs : List β} (h : List.Forall₂ (fun a b => f a = some b) as bs) :
    as.mapM f = some bs := by
  induction h with
  | nil => rfl
  | cons hab _ ih => simp [List.mapM_cons, hab, ih]

theorem StoredValue.normalItem?_toValue (s : StoredValue) :
    s.toValue.normalItem? = some s.toValue := by
  cases s <;> rfl

namespace Memory

open PropertyMap

/-- What is read is in normal form. -/
theorem StoredProperty.normalForm?_natural (p : StoredProperty) :
    p.natural.normalForm? = some p.natural := by
  have hitems : ∀ ss : List StoredValue,
      List.Forall₂ (fun a b => Value.normalItem? a = some b)
        (ss.map StoredValue.toValue) (ss.map StoredValue.toValue) := by
    intro ss
    induction ss with
    | nil => exact .nil
    | cons s rest ih => exact .cons s.normalItem?_toValue ih
  unfold natural
  split
  · simp only [Value.normalForm?, mapM_of_forall₂ (hitems p.values)]
    rfl
  · split
    · next s _ _ => cases s <;> rfl
    · rfl

theorem heldAs_plain {x : Value} {s : StoredValue} (h : HeldAs x s)
    (hx : x.holdsContent = false) : x.normalItem? = some s.toValue := by
  obtain ⟨s₀, hs₀, hbuf⟩ := h
  unfold Value.normalItem?
  cases x with
  | binary b => cases hx
  | object o => cases hx
  | array items => cases hs₀
  | _ =>
      cases hs₀
      cases hbuf
      rfl

/-- A property that keeps a value without content shows its normal
form. -/
theorem Holds.normalForm? {p : StoredProperty} {x : Value}
    (h : Holds p x) (hx : x.holdsContent = false) :
    x.normalForm? = some p.natural := by
  cases h with
  | one hsingle hs =>
      have hitem := heldAs_plain hs hx
      cases x with
      | array items => cases hsingle
      | _ => exact hitem
  | @many name type items ss hss =>
      have hitems : List.Forall₂ (fun a b => Value.normalItem? a = some b)
          items (ss.map StoredValue.toValue) := by
        induction hss with
        | nil => exact .nil
        | cons hs _ ih =>
          simp only [Value.holdsContent, Value.anyHoldsContent,
            Bool.or_eq_false_iff] at hx
          exact .cons (heldAs_plain hs hx.1) (ih hx.2)
      simp only [Value.normalForm?, mapM_of_forall₂ hitems]
      rfl

end Memory

end ContentProperties
