import ConstantReply.Http.Reply

/-!
# Replies as responses

The text of a reply is that of a response: a status line, fields, an empty line and a body.
-/

namespace ConstantReply
namespace Http

structure Response where
  version : Version
  status : Nat
  phrase : String
  fields : List (String × String)
  body : List UInt8

namespace Response

def statusLine (r : Response) : String :=
  r.version.name ++ " " ++ toString r.status ++ " " ++ r.phrase

def lines : List (String × String) -> String
  | [] => ""
  | (name, value) :: rest => name ++ ": " ++ value ++ "\r\n" ++ lines rest

def head (r : Response) : String := r.statusLine ++ "\r\n" ++ lines r.fields ++ "\r\n"

def bytes (r : Response) : List UInt8 := Ascii.bytes r.head ++ r.body

theorem lines_append (front rest : List (String × String)) :
    lines (front ++ rest) = lines front ++ lines rest := by
  induction front with
  | nil =>
      simp [lines]
  | cons f more ih =>
      rw [List.cons_append, lines, lines, ih]
      simp only [String.append_assoc]

end Response

open Response (lines lines_append)

def Announcement.fields : Announcement -> List (String × String)
  | .nothing => []
  | .close => [("connection", "close")]
  | .keepAlive => [("connection", "keep-alive")]

theorem Announcement.lines_fields (a : Announcement) : lines a.fields = a.line := by
  cases a <;> decide +kernel

namespace Reply

def lengthField : String × String := ("content-length", "0")

def fields (a : Announcement) : ReplyForm -> List (String × String)
  | .usual => a.fields ++ [lengthField]
  | .headOnly => lengthField :: a.fields
  | .tunnel => a.fields

def response (date : String) : Reply -> Response
  | .ok l a =>
      { version := l.version
        status := 200
        phrase := "OK"
        fields := fields a (ReplyForm.ofMethod l.method) ++ [("date", date)]
        body := [] }
  | .refusal why =>
      { version := .http11
        status := why.status
        phrase := why.phrase
        fields := Announcement.fields .close ++ [lengthField] ++ [("date", date)]
        body := [] }

theorem lines_lengthField : lines [lengthField] = lengthLine := by
  decide +kernel

theorem lines_date (date : String) : lines [("date", date)] = "date: " ++ date ++ "\r\n" := by
  have hname : "date" ++ ": " = "date: " := by
    decide +kernel
  rw [lines, lines, hname, String.append_empty]

theorem lines_fields (a : Announcement) (form : ReplyForm) :
    lines (fields a form) = fieldLines a form := by
  cases form with
  | usual =>
      rw [fields, lines_append, a.lines_fields, lines_lengthField]
      rfl
  | headOnly =>
      rw [fields, ← List.singleton_append, lines_append, a.lines_fields, lines_lengthField]
      rfl
  | tunnel =>
      exact a.lines_fields

theorem lineEnds : "\r\n" ++ "\r\n" = "\r\n\r\n" := by
  decide +kernel

theorem head_response (date : String) (r : Reply) : (r.response date).head = r.text date := by
  unfold text Response.head Response.statusLine
  cases r with
  | ok l a =>
      have hstatus : toString 200 = "200" := by
        decide +kernel
      have hline : " " ++ ("200" ++ (" " ++ ("OK" ++ "\r\n"))) = " 200 OK\r\n" := by
        decide +kernel
      simp only [response, lines_append, lines_fields, lines_date, hstatus, lineEnds, ← hline,
        String.append_assoc]
  | refusal why =>
      have hline : Version.name .http11 ++ " " = "HTTP/1.1 " := by
        decide +kernel
      simp only [response, lines_append, lines_date, Announcement.lines_fields, lines_lengthField,
        lineEnds, ← hline, String.append_assoc]

theorem bytes_response (date : String) (r : Reply) :
    (r.response date).bytes = Ascii.bytes (r.text date) := by
  have hbody : (r.response date).body = [] := by
    cases r <;> rfl
  rw [Response.bytes, hbody, List.append_nil, head_response]

end Reply

/-!
# What responses may be like
-/

namespace Response

def possibleFields (date : String) : List (String × String) :=
  [("connection", "close"), ("connection", "keep-alive"), ("content-length", "0"), ("date", date)]

def refusalPhrases : List String :=
  ["Bad Request", "URI Too Long", "Request Header Fields Too Large"]

structure IsOk (date : String) (r : Response) : Prop where
  status : r.status = 200
  phrase : r.phrase = "OK"
  fields : forall f, f ∈ r.fields -> f ∈ possibleFields date
  body : r.body = []

structure IsClientError (date : String) (r : Response) : Prop where
  status : 400 ≤ r.status ∧ r.status < 500
  phrase : r.phrase ∈ refusalPhrases
  fields : forall f, f ∈ r.fields -> f ∈ possibleFields date
  body : r.body = []

end Response

theorem ReplyForm.ofMethod_ne_tunnel {method : List UInt8} (h : method ≠ Ascii.bytes "CONNECT") :
    ReplyForm.ofMethod method ≠ .tunnel := by
  unfold ReplyForm.ofMethod
  rw [if_neg h]
  split <;> simp

theorem Announcement.length_fields_le (a : Announcement) : a.fields.length ≤ 1 := by
  cases a <;> decide

theorem Announcement.name_of_mem_fields {a : Announcement} {f : String × String}
    (h : f ∈ a.fields) : f.1 = "connection" := by
  cases a with
  | nothing => cases h
  | close => rw [List.mem_singleton.mp h]
  | keepAlive => rw [List.mem_singleton.mp h]

namespace Reply

theorem mem_possibleFields (date : String) {a : Announcement} {f : String × String}
    (h : f ∈ a.fields) : f ∈ Response.possibleFields date := by
  cases a with
  | nothing => cases h
  | close =>
      rw [List.mem_singleton.mp h]
      exact List.mem_cons_self
  | keepAlive =>
      rw [List.mem_singleton.mp h]
      exact List.mem_cons_of_mem _ List.mem_cons_self

theorem possible_of_mem_fields (date : String) {a : Announcement} {form : ReplyForm}
    {f : String × String} (h : f ∈ fields a form) : f ∈ Response.possibleFields date := by
  have hlength : lengthField ∈ Response.possibleFields date := by
    simp [lengthField, Response.possibleFields]
  cases form with
  | usual =>
      rcases List.mem_append.mp h with h | h
      · exact mem_possibleFields date h
      · rw [List.mem_singleton.mp h]
        exact hlength
  | headOnly =>
      rcases List.mem_cons.mp h with rfl | h
      · exact hlength
      · exact mem_possibleFields date h
  | tunnel => exact mem_possibleFields date h

theorem perm_fields (a : Announcement) {form : ReplyForm} (h : form ≠ .tunnel) :
    (fields a form).Perm (lengthField :: a.fields) := by
  cases form with
  | usual => exact List.perm_append_comm
  | headOnly => exact List.Perm.refl _
  | tunnel => exact absurd rfl h

theorem isOk_response (date : String) (l : RequestLine) (a : Announcement) :
    ((Reply.ok l a).response date).IsOk date where
  status := rfl
  phrase := rfl
  fields := by
    intro f hf
    rcases List.mem_append.mp hf with hf | hf
    · exact possible_of_mem_fields date hf
    · rw [List.mem_singleton.mp hf]
      simp [Response.possibleFields]
  body := rfl

theorem isClientError_response (date : String) (why : Refusal) :
    ((Reply.refusal why).response date).IsClientError date where
  status := by
    change 400 ≤ why.status ∧ why.status < 500
    cases why <;> decide
  phrase := by
    cases why <;> simp [response, Refusal.phrase, Response.refusalPhrases]
  fields := by
    intro f hf
    have hcases : f ∈ [("connection", "close"), lengthField, ("date", date)] := hf
    simp only [lengthField, List.mem_cons, List.not_mem_nil, or_false] at hcases
    rcases hcases with rfl | rfl | rfl <;> simp [Response.possibleFields]
  body := rfl

end Reply
end Http
end ConstantReply
