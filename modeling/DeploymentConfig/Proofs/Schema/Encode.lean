import DeploymentConfig.Proofs.Schema.Spelling
import DeploymentConfig.Schema.Encode

/-!
# What is written is a spelling

Writing fails on a value only for a name outside the variants of an open union
somewhere inside it (`Schema.Writable`), and so never under a schema that has no
open union (`Schema.writable_of_isClosed`). What is written is a spelling of the
value (`Schema.exists_encode`).
-/

namespace DeploymentConfig

mutual

/-- Whether a value has a written form. -/
def Schema.Writable : {α : Type} → Schema α → α → Prop
  | _, .text, _ | _, .flag, _ | _, .integer, _ | _, .choice .., _ | _, .optional _, none => True
  | _, .optional item, some a => item.Writable a
  | _, .list item, as => ∀ a ∈ as, item.Writable a
  | _, .record fields parts _ _, a => fields.Writable (parts a)
  | _, .union _ variants parts _ _, a => variants.Writable (parts a)
  | _, .openUnion _ variants parts _ _, a =>
    match parts a with
    | .inl b => variants.Writable b
    | .inr _ => False

def Fields.Writable : {α : Type} → Fields α → α → Prop
  | _, .nil, _ => True
  | _, .field _ _ _ schema rest, (a, b) => schema.Writable a ∧ rest.Writable b
  | _, .elided _ _ rest, (none, b) => rest.Writable b
  | _, .elided _ schema rest, (some a, b) => schema.Writable a ∧ rest.Writable b

def Variants.Writable : {α : Type} → Variants α → α → Prop
  | _, .nil, a => nomatch a
  | _, .variant _ fields _, .inl a => fields.Writable a
  | _, .variant _ _ rest, .inr b => rest.Writable b

end

mutual

/-- Whether a schema has no open union in it. -/
def Schema.isClosed : {α : Type} → Schema α → Bool
  | _, .text | _, .flag | _, .integer | _, .choice .. => true
  | _, .optional item | _, .list item => item.isClosed
  | _, .record fields .. => fields.isClosed
  | _, .union _ variants .. => variants.isClosed
  | _, .openUnion .. => false

def Fields.isClosed : {α : Type} → Fields α → Bool
  | _, .nil => true
  | _, .field _ _ _ schema rest | _, .elided _ schema rest => schema.isClosed && rest.isClosed

def Variants.isClosed : {α : Type} → Variants α → Bool
  | _, .nil => true
  | _, .variant _ fields rest => fields.isClosed && rest.isClosed

end

mutual

theorem Schema.writable_of_isClosed {α : Type} {schema : Schema α} (h : schema.isClosed = true)
    (a : α) : schema.Writable a := by
  match schema, a, h with
  | .text, _, _ | .flag, _, _ | .integer, _, _ | .choice .., _, _ | .optional _, none, _ => trivial
  | .optional item, some a, h =>
    have hi : item.isClosed = true := h
    exact Schema.writable_of_isClosed hi a
  | .list item, as, h =>
    have hi : item.isClosed = true := h
    exact fun a _ => Schema.writable_of_isClosed hi a
  | .record fields parts _ _, a, h =>
    have hf : fields.isClosed = true := h
    exact Fields.writable_of_isClosed hf (parts a)
  | .union _ variants parts _ _, a, h =>
    have hv : variants.isClosed = true := h
    exact Variants.writable_of_isClosed hv (parts a)

theorem Fields.writable_of_isClosed {α : Type} {fields : Fields α} (h : fields.isClosed = true)
    (a : α) : fields.Writable a := by
  match fields, a, h with
  | .nil, _, _ => trivial
  | .field _ _ _ schema rest, (a, b), h =>
    obtain ⟨hs, hr⟩ := Bool.and_eq_true_iff.mp h
    exact ⟨Schema.writable_of_isClosed hs a, Fields.writable_of_isClosed hr b⟩
  | .elided _ schema rest, (none, b), h =>
    have hr : rest.isClosed = true := (Bool.and_eq_true_iff.mp h).2
    exact Fields.writable_of_isClosed hr b
  | .elided _ schema rest, (some a, b), h =>
    obtain ⟨hs, hr⟩ := Bool.and_eq_true_iff.mp h
    exact ⟨Schema.writable_of_isClosed hs a, Fields.writable_of_isClosed hr b⟩

theorem Variants.writable_of_isClosed {α : Type} {variants : Variants α}
    (h : variants.isClosed = true) (a : α) : variants.Writable a := by
  match variants, a, h with
  | .nil, a, _ => exact a.elim
  | .variant _ fields _, .inl a, h =>
    have hf : fields.isClosed = true := (Bool.and_eq_true_iff.mp h).1
    exact Fields.writable_of_isClosed hf a
  | .variant _ _ rest, .inr b, h =>
    have hr : rest.isClosed = true := (Bool.and_eq_true_iff.mp h).2
    exact Variants.writable_of_isClosed hr b

end

theorem exists_mapM_of_forall {α β : Type} {f : α → Option β} {R : α → β → Prop} {as : List α}
    (h : ∀ a ∈ as, ∃ b, f a = some b ∧ R a b) :
    ∃ bs, as.mapM f = some bs ∧ List.Forall₂ R as bs := by
  induction as with
  | nil => exact ⟨[], rfl, .nil⟩
  | cons a as ih =>
    obtain ⟨⟨b, hb, hab⟩, h⟩ := List.forall_mem_cons.mp h
    obtain ⟨bs, hbs, habs⟩ := ih h
    exact ⟨b :: bs, by rw [List.mapM_cons, hb, hbs]; rfl, .cons hab habs⟩

mutual

theorem Schema.exists_encode {α : Type} {schema : Schema α} {a : α} (h : schema.Writable a) :
    ∃ value, schema.encode a = some value ∧ schema.Spells a value := by
  match schema, a, h with
  | .text, _, _ | .flag, _, _ | .integer, _, _ | .choice .., _, _ | .optional _, none, _ =>
    exact ⟨_, rfl, rfl⟩
  | .optional item, some a, h =>
    have ha : item.Writable a := h
    obtain ⟨value, he, hs⟩ := Schema.exists_encode ha
    exact ⟨value, he, hs⟩
  | .list item, as, h =>
    obtain ⟨items, he, hs⟩ := exists_mapM_of_forall fun a ha => Schema.exists_encode (h a ha)
    exact ⟨.array items, by rw [Schema.encode, he]; rfl, items, rfl, hs⟩
  | .record fields parts _ _, a, h =>
    have hf : fields.Writable (parts a) := h
    obtain ⟨own, he, hs⟩ := Fields.exists_encode hf
    exact ⟨.object own, by rw [Schema.encode, he]; rfl, own, hs, .self _ _⟩
  | .union tag variants parts _ _, a, h =>
    have hv : variants.Writable (parts a) := h
    obtain ⟨own, he, hs⟩ := Variants.exists_encode tag hv
    exact ⟨.object own, by rw [Schema.encode, he]; rfl, hs⟩
  | .openUnion tag variants parts _ _, a, h =>
    cases hp : parts a with
    | inl b =>
      simp only [Schema.Writable, hp] at h
      obtain ⟨own, he, hs⟩ := Variants.exists_encode tag h
      exact ⟨.object own, by simp only [Schema.encode, hp, he, Option.map_some],
        by simpa only [Schema.Spells, hp] using hs⟩
    | inr name => simp only [Schema.Writable, hp] at h

theorem Fields.exists_encode {α : Type} {fields : Fields α} {a : α} (h : fields.Writable a) :
    ∃ own, fields.encode a = some own ∧ fields.Spells a own := by
  match fields, a, h with
  | .nil, _, _ => exact ⟨[], rfl, rfl⟩
  | .field name others default schema rest, (a, b), h =>
    obtain ⟨value, hv, hs⟩ := Schema.exists_encode h.1
    obtain ⟨own, ho, hr⟩ := Fields.exists_encode h.2
    exact ⟨(name, value) :: own, by rw [Fields.encode, hv, ho]; rfl,
      .inr ⟨name, List.mem_cons_self, value, own, hs, hr, rfl⟩⟩
  | .elided _ _ rest, (none, b), h =>
    have hr : rest.Writable b := h
    obtain ⟨own, ho, hs⟩ := Fields.exists_encode hr
    exact ⟨own, ho, hs⟩
  | .elided name schema rest, (some a, b), h =>
    obtain ⟨value, hv, hs⟩ := Schema.exists_encode h.1
    obtain ⟨own, ho, hr⟩ := Fields.exists_encode h.2
    exact ⟨(name, value) :: own, by rw [Fields.encode, hv, ho]; rfl, value, own, hs, hr, rfl⟩

theorem Variants.exists_encode {α : Type} {variants : Variants α} {a : α} (tag : String)
    (h : variants.Writable a) :
    ∃ own, variants.encode tag a = some own ∧ variants.Spells tag a (.object own) := by
  match variants, a, h with
  | .nil, a, _ => exact a.elim
  | .variant name fields _, .inl a, h =>
    obtain ⟨own, ho, hs⟩ := Fields.exists_encode h
    exact ⟨_, by rw [Variants.encode, ho]; rfl, own, hs, .self _ _⟩
  | .variant _ _ rest, .inr b, h =>
    have hr : rest.Writable b := h
    obtain ⟨own, ho, hs⟩ := Variants.exists_encode tag hr
    exact ⟨own, ho, hs⟩

end

end DeploymentConfig
