import Mathlib.Data.List.Count
import Mempool.Proofs.Decimal.Digits
import Mempool.Proofs.Metrics.Account

/-! The exposition of the counters as lines. It shows every series that has been counted, in a fixed
order and with its count, and nothing else: two histories have the same text just if they have the
same counts, and each count can be read back from the text. -/
namespace Mempool

/-! ## Lines -/

/-- The lines of a text, as far as they are ended. -/
def textLines (text : String) : List String :=
  (text.toList.splitOn '\n').dropLast.map String.ofList

theorem splitOn_ended (lines : List String) (whole : ∀ line ∈ lines, '\n' ∉ line.toList) :
    (String.join (lines.map (· ++ "\n"))).toList.splitOn '\n' =
      lines.map String.toList ++ [[]] := by
  induction lines with
  | nil => rfl
  | cons line lines ih =>
    obtain ⟨here, later⟩ := List.forall_mem_cons.mp whole
    have apart : ∀ c ∈ line.toList, (c == '\n') = false := by
      intro c member
      rw [beq_eq_false_iff_ne]
      rintro rfl
      exact here member
    have first := List.splitOnP_append_cons_of_forall_mem apart '\n' rfl
      (String.join (lines.map (· ++ "\n"))).toList
    rw [List.map_cons, String.join_cons, String.toList_append, String.toList_append,
      List.append_assoc]
    exact first.trans (congrArg _ (ih later))

theorem textLines_join {lines : List String} (whole : ∀ line ∈ lines, '\n' ∉ line.toList) :
    textLines (String.join (lines.map (· ++ "\n"))) = lines := by
  rw [textLines, splitOn_ended lines whole, List.dropLast_concat, List.map_map]
  simp [Function.comp_def]

namespace Sample

/-- The front of the line of a series, up to the count. -/
def opening (family : String) (labels : List (String × String)) : String :=
  family ++ Text.braced (",".intercalate (labels.map labelText)) ++ " "

def text (family : String) (s : Sample) : String :=
  opening family s.labels ++ Decimal.ofNat s.count

def values (s : Sample) : List String := s.labels.map Prod.snd

theorem toList_labelText (label : String × String) :
    (labelText label).toList = label.1.toList ++ '=' :: '"' :: (label.2.toList ++ ['"']) := by
  simp only [labelText, String.toList_append, List.append_assoc]
  rfl

theorem toList_opening (family : String) (labels : List (String × String)) :
    (opening family labels).toList = family.toList ++ '{' ::
      ([','].intercalate (labels.map fun l => (labelText l).toList) ++ ['}', ' ']) := by
  simp only [opening, String.toList_append, Text.toList_braced, String.toList_intercalate,
    List.append_assoc, List.cons_append, List.map_map]
  rfl

end Sample

namespace Family

def header (f : Family) : List String :=
  ["# HELP " ++ f.name ++ " " ++ f.help, "# TYPE " ++ f.name ++ " counter"]

/-- There is no header without a sample. -/
def lines (f : Family) : List String :=
  if f.samples.isEmpty then [] else f.header ++ f.samples.map (Sample.text f.name)

theorem mem_lines {f : Family} {line : String} : line ∈ f.lines ↔
    f.samples ≠ [] ∧ (line ∈ f.header ∨ ∃ s ∈ f.samples, Sample.text f.name s = line) := by
  unfold lines
  split
  next none => simp [List.isEmpty_iff.mp none]
  next some => simp only [ne_eq, mt List.isEmpty_iff.mpr some, not_false_eq_true, true_and,
    List.mem_append, List.mem_map]

theorem text_eq_join (f : Family) : f.text = String.join (f.lines.map (· ++ "\n")) := by
  obtain ⟨name, help, samples⟩ := f
  cases samples with
  | nil => rfl
  | cons s samples =>
    have ended : Sample.line name = (· ++ "\n") ∘ Sample.text name := rfl
    apply String.toList_inj.mp
    simp only [text, lines, header, ended, List.isEmpty_cons, Bool.false_eq_true, if_false,
      List.map_cons, List.map_map, Function.comp_apply, List.cons_append, List.nil_append,
      String.join_cons, String.toList_append, List.append_assoc]
    rfl

end Family

theorem Counters.mem_families (c : Counters) {f : Family} :
    f ∈ c.families ↔ f = c.rejectionFamily ∨ f = c.conversionFamily := by
  simp only [families, List.mem_cons, List.not_mem_nil, or_false]

/-! ## Series -/

/-- What is counted under labels of its own. -/
inductive Series where
  | rejected (reason : Reason)
  | converted (success : Bool)
deriving DecidableEq, Repr

namespace Series

def labels : Series → List (String × String)
  | rejected reason => [("kind", reason.kind.label), ("reason", reason.label)]
  | converted success => [("result", Counters.resultLabel success)]

def family (c : Counters) : Series → Family
  | rejected _ => c.rejectionFamily
  | converted _ => c.conversionFamily

def count (c : Counters) : Series → Nat
  | rejected reason => c.rejections reason
  | converted success => c.conversions success

def event : Series → Event
  | rejected reason => .rejected reason
  | converted success => .keyConverted success

def opening (s : Series) : String := Sample.opening (s.family .empty).name s.labels

theorem resultLabel_inj {a b : Bool} :
    Counters.resultLabel a = Counters.resultLabel b ↔ a = b := by
  cases a <;> cases b <;> simp [Counters.resultLabel]

theorem labels_injective : Function.Injective labels := by
  intro a b same
  cases a with
  | rejected reason =>
    cases b with
    | rejected other =>
      have both : reason.kind.label = other.kind.label ∧ reason = other := by
        simpa [labels, Reason.label_inj] using same
      rw [both.2]
    | converted => cases congrArg List.length same
  | converted success =>
    cases b with
    | rejected => cases congrArg List.length same
    | converted other =>
      have alike : success = other := by simpa [labels, resultLabel_inj] using same
      rw [alike]

theorem event_injective : Function.Injective event := by
  rintro (_ | _) (_ | _) ⟨⟩ <;> rfl

/-! ### The front of a line -/

/-- A word of lower-case letters, as labels are. -/
def IsWord (s : String) : Prop := s.toList.all (fun c => c.isLower || c = '_') = true

instance (s : String) : Decidable (IsWord s) := inferInstanceAs (Decidable (_ = true))

theorem isWord_reason (reason : Reason) : IsWord reason.label ∧ IsWord reason.kind.label := by
  cases reason <;> decide

theorem isWord_result (success : Bool) : IsWord (Counters.resultLabel success) := by
  cases success <;> decide

theorem IsWord.notMem {s : String} (word : IsWord s) {c : Char} (other : c.isLower = false)
    (different : c ≠ '_') : c ∉ s.toList := by
  intro member
  have inside := List.all_eq_true.mp word c member
  simp [other, different] at inside

theorem IsWord.quote_notMem {s : String} (word : IsWord s) : '"' ∉ s.toList :=
  word.notMem rfl (by decide)

theorem toList_opening_rejected (reason : Reason) :
    (opening (.rejected reason)).toList =
      "qnet_mempool_rejections_total".toList ++ '{' :: ("kind".toList ++ '=' :: '"' ::
        (reason.kind.label.toList ++ '"' :: ',' :: ("reason".toList ++ '=' :: '"' ::
          (reason.label.toList ++ ['"', '}', ' '])))) := by
  rw [opening, Sample.toList_opening, labels]
  simp only [family, Counters.rejectionFamily, List.map_cons, List.map_nil,
    Sample.toList_labelText, List.intercalate_cons_cons, List.intercalate_singleton,
    List.append_assoc, List.cons_append, List.nil_append]

theorem toList_opening_converted (success : Bool) :
    (opening (.converted success)).toList =
      "qnet_mempool_tx_key_decode_total".toList ++ '{' :: ("result".toList ++ '=' :: '"' ::
        ((Counters.resultLabel success).toList ++ ['"', '}', ' '])) := by
  rw [opening, Sample.toList_opening, labels]
  simp only [family, Counters.conversionFamily, List.map_cons, List.map_nil,
    Sample.toList_labelText, List.intercalate_singleton, List.append_assoc, List.cons_append,
    List.nil_append]

/-- A quoted word is known from the front of a text. -/
theorem eq_of_quoted_prefix {u v x y : List Char} (left : '"' ∉ u) (right : '"' ∉ v)
    (front : u ++ '"' :: x <+: v ++ '"' :: y) : u = v ∧ x <+: y := by
  induction u generalizing v with
  | nil =>
    cases v with
    | nil => exact ⟨rfl, (List.cons_prefix_cons.mp front).2⟩
    | cons c v => exact absurd ((List.cons_prefix_cons.mp front).1 ▸ List.mem_cons_self) right
  | cons c u ih =>
    cases v with
    | nil => exact absurd ((List.cons_prefix_cons.mp front).1 ▸ List.mem_cons_self) left
    | cons d v =>
      obtain ⟨rfl, later⟩ := List.cons_prefix_cons.mp front
      obtain ⟨rfl, rest⟩ := ih (List.not_mem_of_not_mem_cons left)
        (List.not_mem_of_not_mem_cons right) later
      exact ⟨rfl, rest⟩

/-- No series begins its line as another one does. -/
theorem eq_of_opening_prefix {a b : Series} (front : a.opening.toList <+: b.opening.toList) :
    a = b := by
  cases a with
  | rejected reason =>
    obtain ⟨label, kind⟩ := isWord_reason reason
    cases b with
    | rejected other =>
      obtain ⟨label', kind'⟩ := isWord_reason other
      simp only [toList_opening_rejected, List.prefix_append_right_inj, List.cons_prefix_cons,
        true_and] at front
      obtain ⟨_, later⟩ := eq_of_quoted_prefix kind.quote_notMem kind'.quote_notMem front
      simp only [List.prefix_append_right_inj, List.cons_prefix_cons, true_and] at later
      obtain ⟨same, _⟩ := eq_of_quoted_prefix label.quote_notMem label'.quote_notMem later
      rw [Reason.label_inj.mp (String.toList_inj.mp same)]
    | converted success => simp [toList_opening_rejected, toList_opening_converted] at front
  | converted success =>
    cases b with
    | rejected other => simp [toList_opening_rejected, toList_opening_converted] at front
    | converted other =>
      simp only [toList_opening_converted, List.prefix_append_right_inj, List.cons_prefix_cons,
        true_and] at front
      obtain ⟨same, _⟩ := eq_of_quoted_prefix (isWord_result success).quote_notMem
        (isWord_result other).quote_notMem front
      rw [resultLabel_inj.mp (String.toList_inj.mp same)]

theorem head?_opening (s : Series) : s.opening.toList.head? = some 'q' := by
  cases s with
  | rejected reason =>
    rw [toList_opening_rejected]
    rfl
  | converted success =>
    rw [toList_opening_converted]
    rfl

theorem newline_notMem_opening (s : Series) : '\n' ∉ s.opening.toList := by
  cases s with
  | rejected reason =>
    obtain ⟨label, kind⟩ := isWord_reason reason
    simp [toList_opening_rejected, label.notMem, kind.notMem]
  | converted success => simp [toList_opening_converted, (isWord_result success).notMem]

/-! ### The samples of a series -/

theorem opening_eq (c : Counters) (s : Series) :
    Sample.opening (s.family c).name s.labels = s.opening := by
  cases s <;> rfl

theorem family_mem (c : Counters) (s : Series) : s.family c ∈ c.families := by
  cases s with
  | rejected => exact List.mem_cons_self
  | converted => exact List.mem_cons_of_mem _ List.mem_cons_self

theorem mem_samples {c : Counters} {s : Series} (counted : 1 ≤ s.count c) :
    ⟨s.labels, s.count c⟩ ∈ (s.family c).samples := by
  cases s with
  | rejected reason => exact c.mem_rejectionFamily_iff _ |>.mpr ⟨counted, reason, rfl⟩
  | converted success => exact c.mem_conversionFamily_iff _ |>.mpr ⟨counted, success, rfl⟩

theorem exists_of_mem_samples {c : Counters} {f : Family} (listed : f ∈ c.families)
    {sample : Sample} (shown : sample ∈ f.samples) :
    ∃ s : Series, s.family c = f ∧ sample = ⟨s.labels, s.count c⟩ ∧ 1 ≤ s.count c := by
  rcases c.mem_families.mp listed with rfl | rfl
  · obtain ⟨counted, reason, rfl⟩ := (c.mem_rejectionFamily_iff sample).mp shown
    exact ⟨.rejected reason, rfl, rfl, counted⟩
  · obtain ⟨counted, success, rfl⟩ := (c.mem_conversionFamily_iff sample).mp shown
    exact ⟨.converted success, rfl, rfl, counted⟩

end Series

/-! ## The lines of the exposition -/

namespace Counters

variable (c : Counters)

theorem header_line {f : Family} (listed : f ∈ c.families) {line : String}
    (header : line ∈ f.header) : line.toList.head? = some '#' ∧ '\n' ∉ line.toList := by
  rcases c.mem_families.mp listed with rfl | rfl
  · have lines : ∀ line ∈ empty.rejectionFamily.header,
        line.toList.head? = some '#' ∧ '\n' ∉ line.toList := by decide
    exact lines line header
  · have lines : ∀ line ∈ empty.conversionFamily.header,
        line.toList.head? = some '#' ∧ '\n' ∉ line.toList := by decide
    exact lines line header

theorem eq_or_apart {f g : Family} (left : f ∈ c.families) (right : g ∈ c.families) :
    f = g ∨ f.name ≠ g.name ∧ ∀ line ∈ f.header, line ∉ g.header := by
  have names : empty.rejectionFamily.name ≠ empty.conversionFamily.name := by decide
  have headers : ∀ line ∈ empty.rejectionFamily.header,
      line ∉ empty.conversionFamily.header := by decide
  rcases c.mem_families.mp left with rfl | rfl <;> rcases c.mem_families.mp right with rfl | rfl
  · exact .inl rfl
  · exact .inr ⟨names, headers⟩
  · exact .inr ⟨names.symm, fun line here there => headers line there here⟩
  · exact .inl rfl

/-- A line belongs to the header of a family with samples, or to a series that has been counted. -/
theorem line_cases {line : String} (shown : line ∈ c.families.flatMap Family.lines) :
    (∃ f ∈ c.families, f.samples ≠ [] ∧ line ∈ f.header) ∨
      ∃ s : Series, line = s.opening ++ Decimal.ofNat (s.count c) ∧ 1 ≤ s.count c := by
  obtain ⟨f, listed, inside⟩ := List.mem_flatMap.mp shown
  obtain ⟨some, header | ⟨sample, present, rfl⟩⟩ := Family.mem_lines.mp inside
  · exact .inl ⟨f, listed, some, header⟩
  · obtain ⟨s, rfl, rfl, counted⟩ := Series.exists_of_mem_samples listed present
    exact .inr ⟨s, by rw [Sample.text, s.opening_eq], counted⟩

theorem line_mem {s : Series} (counted : 1 ≤ s.count c) :
    s.opening ++ Decimal.ofNat (s.count c) ∈ c.families.flatMap Family.lines := by
  have shown := Series.mem_samples counted
  refine List.mem_flatMap.mpr ⟨s.family c, s.family_mem c, Family.mem_lines.mpr
    ⟨List.ne_nil_of_mem shown, .inr ⟨_, shown, ?_⟩⟩⟩
  rw [Sample.text, s.opening_eq]

theorem newline_notMem_ofNat (n : Nat) : '\n' ∉ (Decimal.ofNat n).toList := by
  intro member
  rw [Decimal.ofNat, String.toList_ofList] at member
  have digit := Decimal.isDigit_of_mem_digits member
  contradiction

theorem exposition_eq_join :
    c.exposition = String.join ((c.families.flatMap Family.lines).map (· ++ "\n")) := by
  apply String.toList_inj.mp
  simp only [exposition, Family.text_eq_join, String.toList_join, List.flatMap_map,
    List.flatMap_assoc]

theorem textLines_exposition : textLines c.exposition = c.families.flatMap Family.lines := by
  rw [exposition_eq_join]
  refine textLines_join fun line shown => ?_
  rcases c.line_cases shown with ⟨f, listed, _, header⟩ | ⟨s, rfl, _⟩
  · exact (c.header_line listed header).2
  · rw [String.toList_append, List.mem_append, not_or]
    exact ⟨s.newline_notMem_opening, newline_notMem_ofNat _⟩

theorem header_mem_iff {f : Family} (listed : f ∈ c.families) {line : String}
    (header : line ∈ f.header) : line ∈ textLines c.exposition ↔ f.samples ≠ [] := by
  rw [textLines_exposition]
  refine ⟨fun shown => ?_, fun some =>
    List.mem_flatMap.mpr ⟨f, listed, Family.mem_lines.mpr ⟨some, .inl header⟩⟩⟩
  rcases c.line_cases shown with ⟨g, other, some, same⟩ | ⟨s, rfl, _⟩
  · have alike : f = g := (c.eq_or_apart listed other).resolve_right fun apart =>
      apart.2 line header same
    exact alike ▸ some
  · have first := (c.header_line listed header).1
    rw [String.toList_append, List.head?_append, s.head?_opening] at first
    cases first

/-! ### The order of the samples -/

theorem pairwise_rejectionFamily :
    c.rejectionFamily.samples.Pairwise fun s t => s.values < t.values := by
  have sorted : Reason.all.Pairwise fun a b =>
      [a.kind.label, a.label] < [b.kind.label, b.label] := by decide
  exact List.pairwise_map.mpr (sorted.sublist List.filter_sublist)

theorem pairwise_conversionFamily :
    c.conversionFamily.samples.Pairwise fun s t => s.values < t.values := by
  have sorted : [false, true].Pairwise fun a b => [resultLabel a] < [resultLabel b] := by decide
  exact List.pairwise_map.mpr (sorted.sublist List.filter_sublist)

end Counters

/-! ## Reading a count back -/

/-- The number in the first line that begins like this, and zero if there is no such line. -/
def readCount (text opening : String) : Nat :=
  match (textLines text).find? fun line => opening.toList.isPrefixOf line.toList with
  | some line => Decimal.value (line.toList.drop opening.toList.length)
  | none => 0

namespace Counters

variable (c : Counters)

theorem line_of_opening {s : Series} {line : String}
    (shown : line ∈ c.families.flatMap Family.lines) (front : s.opening.toList <+: line.toList) :
    line = s.opening ++ Decimal.ofNat (s.count c) := by
  rcases c.line_cases shown with ⟨f, listed, _, header⟩ | ⟨t, rfl, counted⟩
  · -- Headers begin with another character than samples.
    have first := (c.header_line listed header).1
    obtain ⟨rest, same⟩ := front
    rw [← same, List.head?_append, s.head?_opening] at first
    cases first
  · rw [String.toList_append] at front
    have same : s = t := by
      rcases List.prefix_or_prefix_of_prefix front (List.prefix_append _ _) with before | after
      · exact Series.eq_of_opening_prefix before
      · exact (Series.eq_of_opening_prefix after).symm
    rw [same]

theorem readCount_exposition (s : Series) : readCount c.exposition s.opening = s.count c := by
  rw [readCount, textLines_exposition]
  split
  next line found =>
    have shown := List.mem_of_find?_eq_some found
    have begins : s.opening.toList.isPrefixOf line.toList = true := by
      simpa only using List.find?_some found
    have front := List.isPrefixOf_iff_prefix.mp begins
    rw [c.line_of_opening shown front, String.toList_append, List.drop_left, Decimal.ofNat,
      String.toList_ofList, Decimal.value_digits]
  next found =>
    have absent := List.find?_eq_none.mp found
    by_contra counted
    refine absent _ (c.line_mem (s := s) (by omega)) ?_
    rw [String.toList_append]
    exact List.isPrefixOf_iff_prefix.mpr (List.prefix_append _ _)

/-- The counts are all there is in the text. -/
theorem exposition_inj {c d : Counters} :
    c.exposition = d.exposition ↔ ∀ s : Series, s.count c = s.count d := by
  constructor
  · intro same s
    rw [← readCount_exposition, same, readCount_exposition]
  · intro counts
    have rejections : c.rejections = d.rejections := funext fun reason => counts (.rejected reason)
    have conversions : c.conversions = d.conversions :=
      funext fun success => counts (.converted success)
    obtain ⟨_, _⟩ := c
    obtain ⟨_, _⟩ := d
    cases rejections
    cases conversions
    rfl

end Counters

/-! ## Reports -/

/-- An event as a caller reports it. -/
inductive Report where
  | rejection (rejection : Rejection)
  | conversion (success : Bool)
deriving DecidableEq, Repr

namespace Report

def use : Report → Use
  | rejection r => .rejection r
  | conversion success => .conversion success

def labels : Report → List (String × String)
  | rejection r => [("kind", r.kind.label), ("reason", r.reason.label)]
  | conversion success => [("result", Counters.resultLabel success)]

def series : Report → Series
  | rejection r => .rejected r.reason
  | conversion success => .converted success

def family : Report → String
  | rejection _ => "qnet_mempool_rejections_total"
  | conversion _ => "qnet_mempool_tx_key_decode_total"

theorem labels_series (r : Report) : r.series.labels = r.labels := by cases r <;> rfl

theorem family_series (r : Report) (c : Counters) : (r.series.family c).name = r.family := by
  cases r <;> rfl

theorem events_use (r : Report) : r.use.events = [r.series.event] := by cases r <;> rfl

end Report

namespace Counters

/-- The counters after these reports, from a reset on. -/
def ofReports (reports : List Report) : Counters :=
  empty.recordAll (reports.flatMap fun r => r.use.events)

/-- Sessions in which nothing else happens have these counters, whatever the pools are. -/
theorem counters_after_reports (pools : Nat → Pool) (reports : List Report) :
    ((Session.start pools).after (reports.map fun r => .use r.use)).counters =
      ofReports reports := by
  have events (s : Session) : (s.history (reports.map fun r => .use r.use)).flatMap Entry.events =
      reports.flatMap fun r => r.use.events := by
    induction reports generalizing s with
    | nil => rfl
    | cons r reports ih =>
      have first : (s.step (.use r.use)).1.events = r.use.events := by
        simp [Session.step, Entry.events, Entry.uses, Entry.rejected]
      rw [List.map_cons, Session.history, List.flatMap_cons, List.flatMap_cons, ih, first]
  rw [Session.counters_after, events]
  rfl

theorem count_ofReports (s : Series) (reports : List Report) :
    s.count (ofReports reports) = (reports.map Report.labels).count s.labels := by
  have events : (reports.flatMap fun r => r.use.events) =
      (reports.map Report.series).map Series.event := by
    simp only [Report.events_use, List.map_eq_flatMap, List.flatMap_assoc, List.flatMap_singleton]
  have labels : reports.map Report.labels = (reports.map Report.series).map Series.labels := by
    simp only [List.map_map, Function.comp_def, Report.labels_series]
  have counted : s.count (ofReports reports) =
      (reports.flatMap fun r => r.use.events).count s.event := by
    cases s with
    | rejected reason => exact (rejections_recordAll _ _ _).trans (Nat.zero_add _)
    | converted success => exact (conversions_recordAll _ _ _).trans (Nat.zero_add _)
  rw [counted, events, labels, List.count_map_of_injective _ _ Series.event_injective,
    List.count_map_of_injective _ _ Series.labels_injective]

theorem mem_samples_iff {reports : List Report} {f : Family}
    (listed : f ∈ (ofReports reports).families) (sample : Sample) :
    sample ∈ f.samples ↔ ∃ r ∈ reports, r.family = f.name ∧
      sample = ⟨r.labels, (reports.map Report.labels).count r.labels⟩ := by
  constructor
  · intro present
    obtain ⟨s, rfl, rfl, counted⟩ := Series.exists_of_mem_samples listed present
    rw [count_ofReports] at counted ⊢
    obtain ⟨r, member, same⟩ := List.mem_map.mp (List.count_pos_iff.mp counted)
    rw [← r.labels_series] at same
    obtain rfl := Series.labels_injective same
    exact ⟨r, member, (r.family_series _).symm, by rw [r.labels_series]⟩
  · rintro ⟨r, member, name, rfl⟩
    have found : f = r.series.family (ofReports reports) := by
      rw [← r.family_series (ofReports reports)] at name
      exact (eq_or_apart _ listed (r.series.family_mem _)).resolve_right fun apart =>
        apart.1 name.symm
    have counted : 1 ≤ r.series.count (ofReports reports) := by
      rw [count_ofReports, r.labels_series]
      exact List.count_pos_iff.mpr (List.mem_map_of_mem member)
    have shown := Series.mem_samples counted
    rw [count_ofReports, r.labels_series] at shown
    exact found ▸ shown

theorem samples_ne_nil_iff {reports : List Report} {f : Family}
    (listed : f ∈ (ofReports reports).families) :
    f.samples ≠ [] ↔ ∃ r ∈ reports, r.family = f.name := by
  constructor
  · intro some
    obtain ⟨sample, present⟩ := List.exists_mem_of_ne_nil _ some
    obtain ⟨r, member, name, _⟩ := (mem_samples_iff listed sample).mp present
    exact ⟨r, member, name⟩
  · rintro ⟨r, member, name⟩
    exact List.ne_nil_of_mem ((mem_samples_iff listed _).mpr ⟨r, member, name, rfl⟩)

theorem counts_eq_iff (xs ys : List Report) :
    (∀ s : Series, s.count (ofReports xs) = s.count (ofReports ys)) ↔
      ∀ labels, (xs.map Report.labels).count labels = (ys.map Report.labels).count labels := by
  simp only [count_ofReports]
  refine ⟨fun same labels => ?_, fun same s => same s.labels⟩
  by_cases series : ∃ s : Series, s.labels = labels
  · obtain ⟨s, rfl⟩ := series
    exact same s
  · -- Nothing is counted under labels of no series.
    have absent (reports : List Report) : (reports.map Report.labels).count labels = 0 := by
      rw [List.count_eq_zero, List.mem_map]
      rintro ⟨r, _, rfl⟩
      exact series ⟨r.series, r.labels_series⟩
    rw [absent, absent]

/-- Sessions that consist of these reports have these counters. Two histories of reports have the same
text just if the same labels have been reported the same number of times. In the text each family
with reports has its two header lines and one line a sample, and no other family has a line. The
samples of a family are the labels that have been reported for it, each with its count, and their
label values strictly increase. The count of any labels can be read back, also where nothing has been
counted. -/
theorem exposition_canonical (xs ys : List Report) :
    let c := ofReports xs
    let counted (labels : List (String × String)) := (xs.map Report.labels).count labels
    (∀ pools, ((Session.start pools).after (xs.map fun r => .use r.use)).counters = c) ∧
    (c.exposition = (ofReports ys).exposition ↔
      ∀ labels, counted labels = (ys.map Report.labels).count labels) ∧
    c.exposition = String.join ((c.families.flatMap Family.lines).map (· ++ "\n")) ∧
    textLines c.exposition = c.families.flatMap Family.lines ∧
    (∀ f ∈ c.families, ∀ line ∈ f.header,
      (line ∈ textLines c.exposition ↔ ∃ r ∈ xs, r.family = f.name)) ∧
    (∀ f ∈ c.families, ∀ sample, sample ∈ f.samples ↔
      ∃ r ∈ xs, r.family = f.name ∧ sample = ⟨r.labels, counted r.labels⟩) ∧
    (∀ f ∈ c.families, f.samples.Pairwise fun s t => s.values < t.values) ∧
    ∀ r : Report, readCount c.exposition (Sample.opening r.family r.labels) = counted r.labels := by
  intro c counted
  refine ⟨fun pools => counters_after_reports pools xs, exposition_inj.trans (counts_eq_iff xs ys),
    c.exposition_eq_join, c.textLines_exposition, ?_,
    fun f listed sample => mem_samples_iff listed sample, ?_, ?_⟩
  · intro f listed line header
    rw [c.header_mem_iff listed header, samples_ne_nil_iff listed]
  · intro f listed
    rcases c.mem_families.mp listed with rfl | rfl
    · exact c.pairwise_rejectionFamily
    · exact c.pairwise_conversionFamily
  · intro r
    rw [← r.family_series .empty, ← r.labels_series]
    exact (c.readCount_exposition r.series).trans (count_ofReports r.series xs)

/-- Reports in another order have the same text, with the header of the family and both counts. -/
theorem exposition_of_swapped_reports :
    let refused : Report := .rejection (.refused .alreadyKnown)
    let converted : Report := .conversion true
    let c := ofReports [converted, refused, converted]
    c.exposition = (ofReports [refused, converted, converted]).exposition ∧
      "# TYPE qnet_mempool_tx_key_decode_total counter" ∈ textLines c.exposition ∧
      ⟨[("result", "success")], 2⟩ ∈ c.conversionFamily.samples ∧
      readCount c.exposition r#"qnet_mempool_tx_key_decode_total{result="success"} "# = 2 ∧
      readCount c.exposition r#"qnet_mempool_tx_key_decode_total{result="failure"} "# = 0 := by
  intro refused converted c
  obtain ⟨_, same, _, _, headers, samples, _, read⟩ :=
    exposition_canonical [converted, refused, converted] [refused, converted, converted]
  have listed : c.conversionFamily ∈ c.families := c.mem_families.mpr (.inr rfl)
  have member : converted ∈ [converted, refused, converted] := List.mem_cons_self
  have swapped : [converted, refused, converted].Perm [refused, converted, converted] :=
    .swap refused converted [converted]
  refine ⟨same.mpr (swapped.map Report.labels).count_eq, ?_, ?_, read converted,
    read (.conversion false)⟩
  · exact (headers _ listed _ (List.mem_cons_of_mem _ List.mem_cons_self)).mpr
      ⟨converted, member, rfl⟩
  · exact (samples _ listed _).mpr ⟨converted, member, rfl, rfl⟩

end Counters

end Mempool
