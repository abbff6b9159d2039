import Mathlib.Data.List.Infix
import Mathlib.Logic.Function.Iterate
import Triad.Proofs.Meaning.Steps
import Triad.Proofs.Naming.Context

/-!
# Views of a labelled error

An error is a cause under labels (`ParseError.under_labels`).  Three functions
go down to the cause, each in its own way: `root` skips the labels, `message`
writes them in front, and `source?` takes off one.  They see the same labels in
the same order (`views_agree`).

Contexts around a parser put labels on its payload, the last context outermost,
and do nothing else (`Grammar.denote_inContexts`).
-/

namespace Triad

variable {ι : Type} {N : Payloads → Type → Type} {P Q R : Payloads} {α : Type}

namespace ParseError

/-! ## The cause and its labels -/

theorem under_labels (e : ParseError) : e.root.under e.labels = e := by
  induction e with
  | context label _ ih => exact congrArg (context label) ih
  | noMatch | incomplete | fatal => rfl

theorem under_append (labels names : List String) (e : ParseError) :
    e.under (labels ++ names) = (e.under names).under labels := List.foldr_append

theorem source?_root (e : ParseError) : e.root.source? = none := by
  induction e with
  | context _ _ ih => exact ih
  | noMatch | incomplete | fatal => rfl

theorem root_ne_context (e : ParseError) (label : String) (source : ParseError) :
    e.root ≠ context label source := by
  intro h
  have hsource := source?_root e
  rw [h] at hsource
  exact Option.some_ne_none source hsource

theorem root_root (e : ParseError) : e.root.root = e.root := by
  induction e with
  | context _ _ ih => exact ih
  | noMatch | incomplete | fatal => rfl

/-! ## The way to the cause -/

/-- Each error on the way is the cause under the labels that are left. -/
theorem cons_sources_eq (e : ParseError) :
    e :: e.sources = e.labels.tails.map fun labels => e.root.under labels := by
  induction e with
  | context label source ih =>
    rw [labels, List.tails_cons, List.map_cons, sources, ih]
    exact congrArg (· :: _) (under_labels (context label source)).symm
  | noMatch | incomplete | fatal => rfl

theorem length_sources (e : ParseError) : e.sources.length = e.labels.length := by
  induction e with
  | context _ _ ih => exact congrArg Nat.succ ih
  | noMatch | incomplete | fatal => rfl

theorem getElem?_length_labels (e : ParseError) :
    (e :: e.sources)[e.labels.length]? = some e.root := by
  induction e with
  | context _ _ ih => exact ih
  | noMatch | incomplete | fatal => rfl

/-- Asking for the source again and again goes along `sources`. -/
theorem iterate_source? (e : ParseError) (n : Nat) :
    (Option.bind · source?)^[n] (some e) = (e :: e.sources)[n]? := by
  -- behind the cause there is nothing, however often one asks
  have hend : ∀ n, (Option.bind · source?)^[n] none = none := Function.iterate_fixed rfl
  induction n generalizing e with
  | zero => rfl
  | succ n ih =>
    rw [Function.iterate_succ_apply, List.getElem?_cons_succ]
    cases e with
    | context label source => exact ih source
    | noMatch | incomplete | fatal => exact hend n

/-! ## Messages -/

theorem message_under (labels : List String) (e : ParseError) :
    (e.under labels).message = String.join (labels.map (· ++ ": ")) ++ e.message := by
  induction labels with
  | nil => exact String.empty_append.symm
  | cons label labels ih =>
    show label ++ ": " ++ (e.under labels).message = _
    rw [ih, List.map_cons, String.join_cons]
    exact String.append_assoc.symm

theorem message_eq (e : ParseError) :
    e.message = String.join (e.labels.map (· ++ ": ")) ++ e.root.message := by
  rw [← message_under, under_labels]

/-- Taking off a label takes it off the front of the message. -/
theorem isChain_message (e : ParseError) :
    (e :: e.sources).IsChain fun d d' => ∃ front, d.message = front ++ d'.message := by
  induction e with
  | context label source ih => exact List.isChain_cons_cons.2 ⟨⟨label ++ ": ", rfl⟩, ih⟩
  | noMatch | incomplete | fatal => exact List.IsChain.singleton _

end ParseError

/-! ## Contexts around a parser -/

namespace Parser

theorem mapPayload_self (p : Parser ι P α) : mapPayload (fun f => f) (fun e => e) p = p := by
  funext c
  refine (bind_congr fun o => ?_).trans (bind_pure (p c))
  cases o <;> rfl

theorem mapPayload_mapPayload (onFailure : P.Failure → Q.Failure) (onError : P.Error → Q.Error)
    (onFailure' : Q.Failure → R.Failure) (onError' : Q.Error → R.Error) (p : Parser ι P α) :
    mapPayload onFailure' onError' (mapPayload onFailure onError p) =
      mapPayload (fun f => onFailure' (onFailure f)) (fun e => onError' (onError e)) p := by
  funext c
  refine (bind_assoc (p c) _ _).trans (bind_congr fun o => ?_)
  cases o <;> rfl

/-- A map of payloads changes nothing but the payload, and leaves what the
parser leaves behind. -/
theorem mapPayload_related {F : Q.Failure → P.Failure → Prop} {E : Q.Error → P.Error → Prop}
    {onFailure : P.Failure → Q.Failure} {onError : P.Error → Q.Error}
    (hfailure : ∀ f, F (onFailure f) f) (herror : ∀ e, E (onError e) e) (p : Parser ι P α) (c : ι)
    (s : Session ι) :
    Related F E ((mapPayload onFailure onError p c).result s) ((p c).result s) ∧
      (mapPayload onFailure onError p c).final s = (p c).final s := by
  unfold Run.result Run.final mapPayload
  cases hp : p c s with
  | error stop s' =>
    rw [Run.bind_of_stop hp]
    exact ⟨.stop stop, rfl⟩
  | ok o s' =>
    rw [Run.bind_of_ok hp]
    cases o with
    | success a rest => exact ⟨.success a rest, rfl⟩
    | failure f => exact ⟨.failure (hfailure f), rfl⟩
    | error e => exact ⟨.error (herror e), rfl⟩

end Parser

namespace Grammar

/-- The grammar in one context after the other, the first name innermost. -/
def inContexts (names : List String) (g : Grammar ι N ParseError.payloads α) :
    Grammar ι N ParseError.payloads α := names.foldl (fun p name => .context name p) g

theorem denote_inContexts [DecidableEq ι] {rounds : Nat}
    {named : ∀ {P : Payloads} {α : Type}, N P α → Path → Parser ι P α} (names : List String)
    (g : Grammar ι N ParseError.payloads α) (path : Path) :
    (g.inContexts names).denote rounds named path =
      Parser.mapPayload (ParseError.under names.reverse) (ParseError.under names.reverse)
        (g.denote rounds named ((Path.child · 0)^[names.length] path)) := by
  -- the first name is innermost, so the other contexts stand around a larger grammar
  induction names generalizing g with
  | nil => exact (Parser.mapPayload_self _).symm
  | cons name names ih =>
    have hinner : ∀ e, (ParseError.context name e).under names.reverse =
        e.under (name :: names).reverse := by
      intro e
      rw [List.reverse_cons, ParseError.under_append]
      rfl
    refine (ih (.context name g)).trans ((Parser.mapPayload_mapPayload _ _ _ _ _).trans ?_)
    rw [funext hinner, List.length_cons, Function.iterate_succ_apply']

end Grammar

/-- The views of a labelled error agree.

* Asking for the source again and again visits the cause under ever fewer
  labels.  There are as many sources as labels, the last one is the cause, and
  the cause is no labelled error and its own cause.
* The message is that of the cause with the labels in front, the outermost one
  first.  So the message of each source ends the message of the error before.
* In contexts, a parser does the same and leaves the same behind, but its
  payload is put under the names of the contexts, the last one outermost.  They
  stand in front of its message, and the cause stays.  This holds of any
  parser, as the names of a grammar may stand for any parsers. -/
theorem views_agree :
    (∀ e : ParseError,
      (∀ n, (Option.bind · ParseError.source?)^[n] (some e) = (e :: e.sources)[n]?) ∧
      e :: e.sources = (e.labels.tails.map fun labels => e.root.under labels) ∧
      e.sources.length = e.labels.length ∧
      (Option.bind · ParseError.source?)^[e.labels.length] (some e) = some e.root ∧
      (∀ label source, e.root ≠ .context label source) ∧ e.root.root = e.root ∧
      e.message = String.join (e.labels.map (· ++ ": ")) ++ e.root.message ∧
      (e :: e.sources).IsChain fun d d' => ∃ front, d.message = front ++ d'.message) ∧
    ∀ (names : List String) {ι : Type} {N : Payloads → Type → Type} {α : Type} [DecidableEq ι]
      (rounds : Nat) (named : ∀ {P : Payloads} {α : Type}, N P α → Path → Parser ι P α)
      (g : Grammar ι N ParseError.payloads α) (path : Path) (c : ι) (s : Session ι),
      let wrapped := (g.inContexts names).denote rounds named path c
      let bare := g.denote rounds named ((Path.child · 0)^[names.length] path) c
      let labelled := fun e e' : ParseError =>
        e = e'.under names.reverse ∧ e.root = e'.root ∧
          e.message = String.join (names.reverse.map (· ++ ": ")) ++ e'.message
      Related labelled labelled (wrapped.result s) (bare.result s) ∧
        wrapped.final s = bare.final s := by
  refine ⟨fun e => ?_, fun names ι N α _ rounds named g path c s => ?_⟩
  · have hcause := e.iterate_source? e.labels.length
    rw [e.getElem?_length_labels] at hcause
    exact ⟨e.iterate_source?, e.cons_sources_eq, e.length_sources, hcause, e.root_ne_context,
      e.root_root, e.message_eq, e.isChain_message⟩
  · intro wrapped bare labelled
    have hlabelled : ∀ e, labelled (e.under names.reverse) e := fun e =>
      ⟨rfl, ParseError.root_under _ e, ParseError.message_under _ e⟩
    have hmap := Parser.mapPayload_related (P := ParseError.payloads) (Q := ParseError.payloads)
      hlabelled hlabelled (g.denote rounds named ((Path.child · 0)^[names.length] path)) c s
    rwa [← Grammar.denote_inContexts names g path] at hmap

/-- A missing key of an entry. -/
example :
    let e : ParseError := .context "entry" (.context "key" .noMatch)
    e.message = "entry: key: NoMatch" ∧
      e.sources.map ParseError.message = ["key: NoMatch", "NoMatch"] := by decide

end Triad
