import Mempool.Proofs.Json.RecordCuts
import Mempool.Proofs.Json.RoundTrip

/-! Texts of limits, keys and key messages that end early. Wherever a text is cut before the closing
bracket of its value, reading it reports the end of the text; cut after the bracket, it is read as
before. The one exception is a number that is passed over, as part of a member that the record does
not have. -/
namespace Mempool

namespace Json

/-- A text of one value: what stands before its closing bracket, the bracket, and white space. -/
structure Closes (text body : List Char) (close : Char) (space : List Char) : Prop where
  split : text = body ++ close :: space
  closing : IsClose close
  blank : Blank space

/-- How the texts of a type are read when only a front of them is there. `excused` says of a front
that it is malformed rather than truncated. -/
structure NoticesCuts (ofJson : String → Except ReadError α) (excused : List Char → Prop) :
    Prop where
  closes {text : String} {value : α} : ofJson text = .ok value →
    ∃ body close space, Closes text.toList body close space
  kept {text front : String} {value : α} {body : List Char} {close : Char} {space : List Char} :
    ofJson text = .ok value → Closes text.toList body close space →
    front.toList <+: text.toList → body ++ [close] <+: front.toList → ofJson front = .ok value
  noticed {text front : String} {value : α} {body : List Char} {close : Char}
    {space : List Char} :
    ofJson text = .ok value → Closes text.toList body close space → front.toList <+: body →
    ¬excused front.toList → ofJson front = .error .truncated
  malformed {front : String} : excused front.toList → ofJson front = .error .malformed

section Texts

variable {reader : Reader α} {excused : List Char → Prop} {text : String} {value : α}

theorem readText_eq_ok (accepted : readText reader text = .ok value) :
    ∃ rest, reader text.toList = .ok (value, rest) ∧ Blank rest := by
  obtain ⟨⟨_, rest⟩, read, accepted⟩ := bind_eq_ok.mp accepted
  dsimp only at accepted
  split at accepted
  · rename_i empty
    cases accepted
    exact ⟨rest, read, skipSpace_eq_nil_iff.mp (List.isEmpty_iff.mp empty)⟩
  · contradiction

theorem not_blank_of_suffix {close : Char} {rest back : List Char} (closing : IsClose close)
    (within : close :: rest <:+ back) : ¬Blank back := by
  intro blank
  have space := blank close (within.subset List.mem_cons_self)
  rw [isSpace_of_isClose closing] at space
  contradiction

namespace Bracketed

variable (bracketed : Bracketed reader excused) {front : String} {body space : List Char}
  {close : Char}

include bracketed

theorem closes (accepted : readText reader text = .ok value) :
    ∃ body close space, Closes text.toList body close space := by
  obtain ⟨rest, read, blank⟩ := readText_eq_ok accepted
  obtain ⟨close, closing, closed⟩ := bracketed [] text.toList value rest read
  obtain ⟨body, split⟩ := closed.suffix
  exact ⟨body, close, rest, split.symm, closing, blank⟩

/-- Only white space is cut off, so the closing bracket is found where it was. -/
theorem kept (accepted : readText reader text = .ok value)
    (closes : Closes text.toList body close space) (inside : front.toList <+: text.toList)
    (whole : body ++ [close] <+: front.toList) : readText reader front = .ok value := by
  obtain ⟨back, split⟩ := inside
  obtain ⟨more, start⟩ := whole
  obtain ⟨rest, read, after⟩ := readText_eq_ok accepted
  have past : Blank back := by
    have tail : space = more ++ back := by simpa [← start, closes.split] using split.symm
    exact fun c member => closes.blank c (tail ▸ List.mem_append_right more member)
  obtain ⟨_, closing, closed⟩ := bracketed front.toList back value rest (split ▸ read)
  rw [readText]
  generalize reader front.toList = answer at closed
  cases closed with
  | @beyond left _ split =>
    have within : Blank left := fun c member => after c (split ▸ List.mem_append_left back member)
    rw [ok_bind]
    simp only [skipSpace_of_blank within]
    rfl
  | truncated within | malformed within => exact absurd past (not_blank_of_suffix closing within)

/-- The closing bracket is cut off, so the reader cannot have gone beyond the cut. -/
theorem noticed (accepted : readText reader text = .ok value)
    (closes : Closes text.toList body close space) (inside : front.toList <+: body)
    (unexcused : ¬excused front.toList) : readText reader front = .error .truncated := by
  obtain ⟨back, start⟩ := inside
  obtain ⟨rest, read, after⟩ := readText_eq_ok accepted
  have split : text.toList = front.toList ++ (back ++ close :: space) := by
    simp [closes.split, ← start]
  obtain ⟨_, _, closed⟩ := bracketed front.toList _ value rest (split ▸ read)
  rw [readText]
  generalize reader front.toList = answer at closed
  cases closed with
  | @beyond left _ split =>
    have within : close :: space <:+ rest := ⟨left ++ back, by simp [split]⟩
    exact absurd after (not_blank_of_suffix closes.closing within)
  | truncated => rfl
  | malformed _ excuse => exact absurd excuse unexcused

theorem noticesCuts (malformed : ∀ {s}, excused s → reader s = .error .malformed) :
    NoticesCuts (readText reader) excused where
  closes := bracketed.closes
  kept := bracketed.kept
  noticed := bracketed.noticed
  malformed excuse := by
    rw [readText, malformed excuse]
    rfl

end Bracketed

end Texts

end Json

open Json

theorem KeyMessage.lawful_schema : schema.Lawful where
  gradual := by
    intro m member d
    obtain rfl := List.mem_singleton.mp member
    exact Member.gradual_of bracketed_readBytes.gradual
  sets := by
    intro m d d' s rest member read
    obtain rfl := List.mem_singleton.mp member
    obtain ⟨field, rfl⟩ := Member.of_read_eq_ok read
    rfl
  keeps := by
    intro m other d d' s rest member another read _
    obtain rfl := List.mem_singleton.mp member
    obtain rfl := List.mem_singleton.mp another
    obtain ⟨field, rfl⟩ := Member.of_read_eq_ok read
    rfl
  finishes := by
    intro d there
    obtain ⟨field, rfl⟩ := Option.isSome_iff_exists.mp (there _ (List.mem_singleton_self _))
    exact ⟨⟨field⟩, rfl⟩

theorem Limits.lawful_schema : schema.Lawful where
  gradual := by
    intro m member d
    simp only [schema, List.mem_cons, List.not_mem_nil, or_false] at member
    rcases member with rfl | rfl | rfl | rfl | rfl
    · exact Member.gradual_of gradual_readUInt64
    · exact Member.gradual_of gradual_readUInt64
    · exact Member.gradual_of gradual_readInt64
    · exact Member.gradual_of gradual_readUInt64
    · exact Member.gradual_of gradual_readInt64
  sets := by
    intro m d d' s rest member read
    simp only [schema, List.mem_cons, List.not_mem_nil, or_false] at member
    rcases member with rfl | rfl | rfl | rfl | rfl <;>
      (obtain ⟨n, rfl⟩ := Member.of_read_eq_ok read; rfl)
  keeps := by
    intro m other d d' s rest member another read set
    simp only [schema, List.mem_cons, List.not_mem_nil, or_false] at member another
    -- The member that has been read is set; the others are as they were.
    rcases member with rfl | rfl | rfl | rfl | rfl <;>
      obtain ⟨n, rfl⟩ := Member.of_read_eq_ok read <;>
      rcases another with rfl | rfl | rfl | rfl | rfl <;> first | rfl | exact set
  finishes := by
    intro d there
    simp only [schema, Member.of, List.forall_mem_cons, Option.isSome_iff_exists] at there
    obtain ⟨⟨_, first⟩, ⟨_, second⟩, ⟨_, third⟩, ⟨_, fourth⟩, ⟨_, fifth⟩, _⟩ := there
    simp only [schema, Draft.finish, first, second, third, fourth, fifth, required]
    exact ⟨_, rfl⟩

theorem Key.bracketed_readJson : Bracketed readJson never := by
  refine .of_opening ?_ ?_
  · intro s empty
    simp only [readJson, empty]
    exact refuse_nil _
  · intro s key rest read
    unfold readJson at read
    split at read
    · rename_i left start
      refine ⟨'[', left, start, _, never, .of_contents ofItems
        (gradual_items gradual_readByte readByte_shorter size true) (.inl rfl) ?_, ?_⟩
      · intro front bytes out
        have exact : bytes.length = 32 := length_of_items_out out
        exact ⟨⟨bytes, exact⟩, by simp [ofItems, ofBytes?, exact]⟩
      · exact fun s left start => ⟨readJson_of_start start, id⟩
    · exact absurd read refuse_ne_ok

namespace Json

/-- Keys have no members, so no cut of theirs is excused. -/
theorem cuts_noticed :
    NoticesCuts Limits.ofJson Limits.schema.CutsNumber ∧
      NoticesCuts Key.ofJson never ∧
      NoticesCuts KeyMessage.ofJson KeyMessage.schema.CutsNumber :=
  ⟨Limits.lawful_schema.bracketed_read.noticesCuts Limits.lawful_schema.malformed_of_cutsNumber,
    Key.bracketed_readJson.noticesCuts False.elim,
    KeyMessage.lawful_schema.bracketed_read.noticesCuts
      KeyMessage.lawful_schema.malformed_of_cutsNumber⟩

/-- A message, cut after its brace and in the number of another member, and a key, cut in a byte. -/
theorem cuts_of_message_and_key :
    KeyMessage.ofJson (r#"{"n":[1.5],"tx_key":[70]}"# ++ "\n") = .ok ⟨[70]⟩ ∧
      KeyMessage.ofJson r#"{"n":[1.5],"tx_key":[70]}"# = .ok ⟨[70]⟩ ∧
      KeyMessage.ofJson (.singleton '{' ++ r#""n":[1."#) = .error .malformed ∧
      Key.ofJson Key.zero.toJson = .ok Key.zero ∧ Key.ofJson "[0,0" = .error .truncated := by
  obtain ⟨_, keys, messages⟩ := cuts_noticed
  have message : KeyMessage.ofJson (r#"{"n":[1.5],"tx_key":[70]}"# ++ "\n") = .ok ⟨[70]⟩ := by
    decide +kernel
  have brace : Closes (r#"{"n":[1.5],"tx_key":[70]}"# ++ "\n").toList
      (r#"{"n":[1.5],"tx_key":[70]}"#.toList.take 24) '}' ['\n'] :=
    ⟨by decide, .inr rfl, by decide⟩
  have key : Key.ofJson Key.zero.toJson = .ok Key.zero := by decide +kernel
  have bracket : Closes Key.zero.toJson.toList (Key.zero.toJson.toList.take 64) ']' [] :=
    ⟨by decide +kernel, .inl rfl, by decide⟩
  refine ⟨message, messages.kept message brace ?_ ?_, messages.malformed ?_, key,
    keys.noticed key bracket ?_ id⟩
  · exact ⟨['\n'], by decide⟩
  · exact ⟨[], by decide⟩
  · exact ⟨_, rfl, ['[', '1', '.'], .here rfl rfl rfl rfl, .point, [.list], rfl, rfl⟩
  · decide +kernel

end Json

end Mempool
