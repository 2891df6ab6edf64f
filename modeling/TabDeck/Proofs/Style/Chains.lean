import TabDeck.Proofs.Dictionary
import TabDeck.Style.Theme
/-!
A chain of themes answers like one theme without ancestors that holds the values of all of them.
-/
namespace TabDeck.Style

/-- The values of a layer over the table of those it inherits; of an attribute with two values the first one counts. -/
def Layer.over (l : Layer) (inherited : List (UInt32 × Value)) : List (UInt32 × Value) :=
  l.values.foldr (fun e table => Dictionary.insert e.1 e.2 table) inherited

def Layer.merged (layers : List Layer) : List (UInt32 × Value) := layers.foldr Layer.over []

namespace Layer

variable {attr : UInt32}

theorem over_eq (l : Layer) (inherited : List (UInt32 × Value)) :
    l.over inherited = l.values.reverse.foldl (fun table e => Dictionary.insert e.1 e.2 table) inherited :=
  List.foldl_reverse.symm

theorem lookup_over (l : Layer) (inherited : List (UInt32 × Value)) :
    (l.over inherited).lookup attr = (l.values.lookup attr).or (inherited.lookup attr) := by
  rw [over_eq, Dictionary.lookup_foldl_insert, List.reverse_reverse]

theorem lookup_merged (layers : List Layer) :
    (merged layers).lookup attr = layers.findSome? fun l => l.values.lookup attr := by
  induction layers with
  | nil => rfl
  | cons l layers ih =>
    calc (merged (l :: layers)).lookup attr
        = (l.values.lookup attr).or ((merged layers).lookup attr) := lookup_over l (merged layers)
      _ = (l.values.lookup attr).or (layers.findSome? fun l => l.values.lookup attr) := by rw [ih]
      _ = (l :: layers).findSome? fun l => l.values.lookup attr := by
        rw [List.findSome?_cons]
        cases l.values.lookup attr <;> rfl

theorem ascending_merged (layers : List Layer) : Dictionary.Ascending (merged layers) := by
  induction layers with
  | nil => exact List.Pairwise.nil
  | cons l layers ih =>
    change Dictionary.Ascending (l.over (merged layers))
    rw [over_eq]
    exact Dictionary.ascending_foldl_insert ih l.values.reverse

end Layer

namespace Theme

def table (t : Theme) : List (UInt32 × Value) := Layer.merged (t.own :: t.ancestors)

def flattened (t : Theme) (name : String) : Theme := ⟨⟨name, t.table⟩, []⟩

structure Alike (t f : Theme) (attr : UInt32) : Prop where
  color : t.color attr = f.color attr
  pixels (m : Display.Metrics) : t.pixels attr m = f.pixels attr m
  resource : t.resource attr = f.resource attr
  drawable : t.drawable attr = f.drawable attr
  boolean (fallback : Bool) : (t.boolean attr fallback).1 = (f.boolean attr fallback).1
  int (fallback : Int32) : (t.int attr fallback).1 = (f.int attr fallback).1
  text : (t.text attr).1 = (f.text attr).1

section Resolution

variable {α : Type} {t f : Theme} {attr : UInt32}

theorem require_congr (h : t.resolve attr = f.resolve attr) (expected : String) (coerce : Value → Option α) :
    t.require attr expected coerce = f.require attr expected coerce := by
  rw [require, require, h]

theorem fst_coerced (expected : String) (coerce : Value → Option α) :
    (t.coerced attr expected coerce).1 = (t.resolve attr).bind coerce := by
  rw [coerced]
  split
  · next a ha => exact ha.symm
  · next hnone => exact hnone.symm

theorem fst_coerced_congr (h : t.resolve attr = f.resolve attr) (expected : String) (coerce : Value → Option α) :
    (t.coerced attr expected coerce).1 = (f.coerced attr expected coerce).1 := by
  rw [fst_coerced, fst_coerced, h]

theorem Alike.of_resolve (h : t.resolve attr = f.resolve attr) : t.Alike f attr where
  color := require_congr h "color" Value.asColor?
  pixels m := require_congr h "dimension" (Value.asPixels? m)
  resource := require_congr h "reference" Value.asReference?
  drawable := congrArg Except.toOption (require_congr h "reference" Value.asReference?)
  boolean fallback := congrArg (·.getD fallback) (fst_coerced_congr h "boolean" Value.asBoolean?)
  int fallback := congrArg (·.getD fallback) (fst_coerced_congr h "integer" Value.asInteger?)
  text := fst_coerced_congr h "text" Value.asText?

end Resolution

theorem resolve_eq_lookup (t : Theme) (attr : UInt32) : t.resolve attr = t.table.lookup attr :=
  (Layer.lookup_merged (t.own :: t.ancestors)).symm

theorem resolve_flattened (t : Theme) (name : String) (attr : UInt32) :
    (t.flattened name).resolve attr = t.table.lookup attr := by
  rw [resolve, flattened, List.findSome?_singleton]

theorem resolve_set (t : Theme) (attr other : UInt32) (v : Value) :
    (t.set attr v).resolve other = if other = attr then some v else t.resolve other := by
  rw [resolve, resolve, set, List.findSome?_cons, List.findSome?_cons]
  by_cases hattr : other = attr
  · rw [if_pos hattr, hattr, Dictionary.lookup_insert_self]
  · rw [if_neg hattr, Dictionary.lookup_insert_of_ne hattr]

theorem answers_flattened (t : Theme) (attr : UInt32) :
    Dictionary.Ascending t.table ∧ t.resolve attr = t.table.lookup attr ∧
      (∀ name, t.Alike (t.flattened name) attr) ∧
      ∀ v other, (t.set attr v).resolve other = if other = attr then some v else t.resolve other := by
  refine ⟨Layer.ascending_merged _, t.resolve_eq_lookup attr, fun name => ?_, fun v other => t.resolve_set attr other v⟩
  apply Alike.of_resolve
  rw [t.resolve_eq_lookup, t.resolve_flattened name]

end Theme

end TabDeck.Style
