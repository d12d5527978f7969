/-! Quoted tokens: a token opens and closes with its quote character, and a quote character inside
it is written twice. The same encoding serves names and string literals. -/

namespace BoundSql.Quoted

/-- Every occurrence of the quote character is written twice. -/
def double (quote : Char) : List Char → List Char
  | [] => []
  | c :: r => if c = quote then quote :: quote :: double quote r else c :: double quote r

@[simp] theorem double_nil (quote : Char) : double quote [] = [] := rfl

@[simp] theorem double_cons_self (quote : Char) (r : List Char) :
    double quote (quote :: r) = quote :: quote :: double quote r := by simp [double]

theorem double_cons_of_ne {quote c : Char} (h : c ≠ quote) (r : List Char) :
    double quote (c :: r) = c :: double quote r := by simp [double, h]

/-- The token that stands for a text. -/
def token (quote : Char) (s : String) : String :=
  String.ofList (quote :: (double quote s.toList ++ [quote]))

@[simp] theorem toList_token (quote : Char) (s : String) :
    (token quote s).toList = quote :: (double quote s.toList ++ [quote]) := by simp [token]

end BoundSql.Quoted
