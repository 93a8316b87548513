import Deployment.Yaml.Printer
import Mathlib.Data.List.Basic

namespace Deployment.Yaml

namespace Page

/-- Whether all text of a page is the beginning of the text of another. -/
def Begins (p q : Page) : Prop :=
  p.text.toList <+: q.text.toList

variable {p q r : Page}

theorem begins_refl (p : Page) : p.Begins p :=
  List.prefix_rfl

theorem Begins.trans (first : p.Begins q) (second : q.Begins r) : p.Begins r :=
  List.IsPrefix.trans first second

theorem Begins.mem {c : Char} (begins : p.Begins q) (member : c ∈ p.text.toList) :
    c ∈ q.text.toList :=
  begins.subset member

theorem begins_of_eq_append {s : String} (more : q.text = p.text ++ s) : p.Begins q := by
  rw [Begins, more, String.toList_append]
  exact List.prefix_append _ _

theorem begins_write (s : String) (p : Page) : p.Begins (p.write s) :=
  begins_of_eq_append rfl

theorem begins_writeWord (s : String) (p : Page) : p.Begins (p.writeWord s) := by
  unfold writeWord
  split
  · exact begins_write s p
  · exact (begins_write " " p).trans (begins_write s _)

theorem begins_freshLine (column : Nat) (p : Page) : p.Begins (p.freshLine column) := by
  unfold freshLine
  dsimp only
  split
  · exact begins_of_eq_append rfl
  · exact begins_of_eq_append String.append_assoc

theorem begins_writeBlock (cs : List Char) (p : Page) : p.Begins (p.writeBlock cs) :=
  begins_of_eq_append rfl

theorem mem_of_begins_write {c : Char} {s : String} (written : c ∈ s.toList)
    (begins : (p.write s).Begins q) : c ∈ q.text.toList :=
  begins.mem (by simp [write, written])

end Page

namespace Printer

open Page

theorem begins_string (column : Nat) (s : String) (p : Page) : p.Begins (string column s p) := by
  unfold string
  dsimp only
  split
  · exact begins_writeWord _ p
  · exact begins_writeWord _ p
  · exact begins_writeWord _ p
  · exact (begins_writeWord _ p).trans (begins_writeBlock _ _)

theorem begins_beginEntry (continues : Bool) (column : Nat) (p : Page) :
    p.Begins (beginEntry continues column p) := by
  unfold beginEntry
  split
  · exact begins_of_eq_append rfl
  · exact begins_freshLine column p

mutual
/-- Printing a value adds to the page. -/
theorem begins_node (place : Place) (column : Nat) (tagged : Bool) :
    ∀ (v : Value) (p : Page), p.Begins (node place column tagged v p)
  | .null, p => begins_writeWord _ p
  | .bool _, p => begins_writeWord _ p
  | .number _, p => begins_writeWord _ p
  | .string s, p => begins_string _ s p
  | .sequence [], p => begins_writeWord _ p
  | .sequence (v :: rest), p => begins_items _ _ (v :: rest) p
  | .mapping [], p => begins_writeWord _ p
  | .mapping (e :: rest), p => begins_entries _ _ (e :: rest) p
  | .tagged _ v, p => (begins_writeWord _ p).trans (begins_node place column true v _)

theorem begins_items (column : Nat) (continues : Bool) :
    ∀ (vs : List Value) (p : Page), p.Begins (items column continues vs p)
  | [], p => begins_refl p
  | v :: rest, p =>
    (begins_beginEntry continues column p).trans ((begins_write _ _).trans
      ((begins_node _ _ _ v _).trans (begins_items column false rest _)))

theorem begins_entries (column : Nat) (continues : Bool) :
    ∀ (es : Entries) (p : Page), p.Begins (entries column continues es p)
  | [], p => begins_refl p
  | (k, v) :: rest, p => by
    rw [entries]
    dsimp only
    refine (begins_beginEntry continues column p).trans
      (Page.Begins.trans ?_ (begins_entries column false rest _))
    split
    · exact (begins_node _ _ _ k _).trans ((begins_write _ _).trans (begins_node _ _ _ v _))
    · exact (begins_write _ _).trans ((begins_node _ _ _ k _).trans ((begins_freshLine _ _).trans
        ((begins_write _ _).trans (begins_node _ _ _ v _))))
end

theorem mark_mem_tagText (t : Tag) : '!' ∈ (tagText t).toList := by
  unfold tagText
  dsimp only
  split <;> simp

end Printer

namespace Value

open Printer

variable {v : Value} {text : String}

theorem begins_print (printed : v.print = some text) :
    (node .root 0 false v {}).Begins ⟨text, true⟩ := by
  unfold print at printed
  split at printed
  · cases printed
    exact Page.begins_freshLine 0 _
  · cases printed

theorem head?_print_sequence {rest : List Value}
    (printed : (sequence (v :: rest)).print = some text) : text.toList.head? = some '-' := by
  have first : (Page.mk "-" false).Begins ⟨text, true⟩ :=
    (begins_node _ _ _ v _).trans ((begins_items 0 false rest _).trans (begins_print printed))
  obtain ⟨more, whole⟩ := first
  rw [← whole]
  rfl

theorem colon_mem_print_mapping {e : Value × Value} {rest : Entries}
    (printed : (mapping (e :: rest)).print = some text) : ':' ∈ text.toList := by
  have colon : ':' ∈ ":".toList := by decide
  refine (begins_print printed).mem ((begins_entries _ _ rest _).mem ?_)
  dsimp only
  split
  · exact Page.mem_of_begins_write colon (begins_node _ _ _ e.2 _)
  · exact Page.mem_of_begins_write colon (begins_node _ _ _ e.2 _)

theorem mark_mem_print_tagged {t : Tag} (printed : (tagged t v).print = some text) :
    '!' ∈ text.toList := by
  refine (begins_print printed).mem ((begins_node _ _ _ v _).mem ?_)
  exact Page.mem_of_begins_write (mark_mem_tagText t) (Page.begins_refl _)

end Value

end Deployment.Yaml
