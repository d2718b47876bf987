import Sheetsmith.Proofs.Value.Recoloring
import Sheetsmith.Proofs.Value.Searching
import Sheetsmith.Proofs.Value.Sparing

namespace Sheetsmith.Value

open Text

/-- A verbatim text in which no pass over the value of a property finds anything: the search for
colours takes it as a whole, and the other passes leave it as it is when it stands alone. -/
structure Steady (property : String) (text : List Char) : Prop where
  weights : property = "font" ∨ property = "font-weight" →
    replaceAll (run (!isBlank ·)) weightNumber text = text
  colors : colorless.contains property = false → colorToken none text = some text.length
  positions : property = "background-position" → ∀ entry ∈ positionWords,
    replaceLiteral entry.1 entry.2 text = text
  fractions : replaceAll leadingZero dropZeros text = text
  zeros : replaceAll zeroUnit bareZero text = text

section

variable {property : String} {cs : List Char} (hcloses : ClosesStrings cs)
  (hsteady : ∀ text ∈ verbatims cs, Steady property text)
include hcloses hsteady

/-- Shortening colours spares the strings and `url`s of a value. No call may end inside of a string,
and each of them must be taken as a whole by the search. -/
theorem spares_colored {read : Color.Reader} (hhex : read.WritesHex) (hbare : read.ReadsBare)
    (hcalls : colorless.contains property = false →
      ∀ token ∈ findAll colorToken cs, ClosesStrings token) {out : List Char}
    (hout : colored read property cs = .ok out) : Spares cs out := by
  unfold colored at hout
  split at hout
  · cases hout
    exact .rfl
  · next hcolors =>
    have hcolors := Bool.eq_false_iff.2 hcolors
    obtain ⟨outs, houts, rfl⟩ := exists_of_map_eq_ok hout
    have hsearch : Searchable none cs := by
      refine ⟨hcloses, fun text htext => (hsteady text htext).colors hcolors,
        fun token htoken => ?_, fun hstarts => by cases hstarts⟩
      exact hcalls hcolors token (List.mem_filterMap.2 ⟨.hit token, htoken, rfl⟩)
    obtain ⟨hsame, hnew⟩ :=
      (hsearch.sweeps hhex hbare (fun _ => rfl) (fun _ => rfl) houts).spares
    exact ⟨hsame, fun _ => hnew⟩

/-- Replacing position keywords spares the strings and `url`s in which none is found. -/
theorem spares_positioned : Spares cs (positioned property cs) := by
  unfold positioned
  split
  · next hproperty =>
    exact spares_shortenPosition hcloses fun text htext => (hsteady text htext).positions hproperty
  · exact .rfl

/-- Shortening lengths spares the strings and `url`s in which none is found. -/
theorem spares_optimizeLengths : Spares cs (optimizeLengths property cs) := by
  have hlengths := spares_shortenLengths hcloses fun text htext =>
    ⟨(hsteady text htext).fractions, (hsteady text htext).zeros⟩
  unfold optimizeLengths
  dsimp only
  split
  · exact hlengths.trans (spares_collapseBox _)
  · exact hlengths

end

/-- Writing weights as numbers spares the strings and `url`s in which none is found. -/
theorem spares_weighed {property value : String} (hcloses : ClosesStrings value.toList)
    (hsteady : ∀ text ∈ verbatims value.toList, Steady property text) :
    Spares value.toList (weighed property value) := by
  unfold weighed
  split
  · next hproperty =>
    exact spares_foldWeights hcloses fun text htext => (hsteady text htext).weights hproperty
  · exact .rfl

/-- Optimizing a value keeps its strings and `url`s and their order, where no pass finds anything
inside of them and no call of the value ends inside of a string. All of this is asked of the value
before, each text looked at by itself; the property and the reader may be any, if the reader writes
by hexadecimal digits and recognizes no text with a string in it. -/
theorem verbatims_optimizeUnits {read : Color.Reader} (hhex : read.WritesHex)
    (hbare : read.ReadsBare) {property value : String} (hcloses : ClosesStrings value.toList)
    (hsteady : ∀ text ∈ verbatims value.toList, Steady property text)
    (hcalls : colorless.contains property = false →
      ∀ token ∈ findAll colorToken (weighed property value), ClosesStrings token) :
    (∀ out, optimizeWords read property value = .ok out →
      verbatims (optimizeUnits property out).toList = verbatims value.toList ∧
        ClosesStrings (optimizeUnits property out).toList) ∧
    (read.Total → ∃ out, optimizeWords read property value = .ok out) := by
  refine ⟨fun out hout => ?_, fun htotal => exists_optimizeWords_eq_ok htotal property value⟩
  obtain ⟨cs, hcs, hwords⟩ := optimizeWords_eq_ok hout
  have hweighed := spares_weighed hcloses hsteady
  have hcolored := hweighed.trans (spares_colored (hweighed.closes hcloses)
    (hweighed.verbatims ▸ hsteady) hhex hbare hcalls hcs)
  have hpositioned := hcolored.trans
    (spares_positioned (hcolored.closes hcloses) (hcolored.verbatims ▸ hsteady))
  have hlengths := hpositioned.trans
    (spares_optimizeLengths (hpositioned.closes hcloses) (hpositioned.verbatims ▸ hsteady))
  rw [optimizeUnits, String.toList_ofList, hwords]
  exact ⟨hlengths.verbatims, hlengths.closes hcloses⟩

/-- A `url` and a string that names a colour, among a length and a colour. -/
theorem verbatims_optimizeUnits_background :
    let value := "url(a.png) 0px rgb(0, 0,0) \"it\\\"s white\""
    let texts := ["url(a.png)".toList, "\"it\\\"s white\"".toList]
    Color.opaqueHex.WritesHex ∧ Color.opaqueHex.ReadsBare ∧ ClosesStrings value.toList ∧
      verbatims value.toList = texts ∧ (∀ text ∈ texts, Steady "background" text) ∧
      (∀ token ∈ findAll colorToken (weighed "background" value), ClosesStrings token) ∧
      ∃ out, optimizeWords Color.opaqueHex "background" value = .ok out ∧
        verbatims (optimizeUnits "background" out).toList = texts := by
  intro value texts
  have hcloses : ClosesStrings value.toList := by decide +kernel
  have htexts : verbatims value.toList = texts := by decide +kernel
  have hsteady : ∀ text ∈ texts, Steady "background" text := by
    refine List.forall_mem_cons.2 ⟨?_, List.forall_mem_singleton.2 ?_⟩
    · exact ⟨by decide, fun _ => by decide +kernel, by decide, by decide +kernel, by decide +kernel⟩
    · exact ⟨by decide, fun _ => by decide +kernel, by decide, by decide +kernel, by decide +kernel⟩
  -- One evaluation for both, since each looks through the whole table of names.
  obtain ⟨hcalls, hparts⟩ :
      (∀ token ∈ findAll colorToken (weighed "background" value), ClosesStrings token) ∧
      (recolored Color.opaqueHex "background" value).toOption =
        some [.kept "url(a.png) 0px ".toList, .color "rgb(0, 0,0)".toList "#000".toList,
          .kept " \"it\\\"s white\"".toList] := by
    decide +kernel
  have hout := optimizeWords_of_recolored (eq_ok_of_toOption hparts)
  obtain ⟨hsame, -⟩ := verbatims_optimizeUnits Color.writesHex_opaqueHex Color.readsBare_opaqueHex
    hcloses (htexts ▸ hsteady) fun _ => hcalls
  exact ⟨Color.writesHex_opaqueHex, Color.readsBare_opaqueHex, hcloses, htexts, hsteady, hcalls, _,
    hout, (hsame _ hout).1.trans htexts⟩

/-- Lengths are looked for inside of strings as well. -/
theorem verbatims_optimizeUnits_ne :
    ClosesStrings "\"a 0px b\"".toList ∧
      optimizeWords Color.opaqueHex "content" "\"a 0px b\"" = .ok "\"a 0px b\"" ∧
      optimizeUnits "content" "\"a 0px b\"" = "\"a 0 b\"" ∧
      verbatims "\"a 0px b\"".toList = ["\"a 0px b\"".toList] ∧
      verbatims "\"a 0 b\"".toList = ["\"a 0 b\"".toList] := by
  exact ⟨by decide +kernel, eq_ok_of_toOption (by decide +kernel), by decide +kernel,
    by decide +kernel, by decide +kernel⟩

end Sheetsmith.Value
