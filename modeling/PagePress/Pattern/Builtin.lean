/-
  PagePress.Pattern.Builtin

  The built-in library of Korean sentence patterns.

  The patterns are templates themselves: they name variables, attach
  particles and leave out what has no value.
-/

import PagePress.Pattern.Library
import PagePress.Template.Braces

namespace PagePress.Pattern

/-- A pattern put together from tags and plain text. -/
def sentence (parts : List Text) : Text := parts.flatten

def areaPatterns : PatternCategory :=
  [("closing",
    [sentence [braced "region", " 여행 계획에 도움이 되길 바랍니다."],
     sentence [braced "region", "의 다른 장소도 함께 살펴보세요."]]),
   ("highlights",
    [sentence [braced "#each places", braced "name", braced "#if @last", braced "else", ", ", braced "/if",
      braced "/each", " 등이 대표적입니다."],
     sentence ["대표 장소로는 ", braced "#each places", braced "name", braced "#if @last", braced "else", ", ",
      braced "/if", braced "/each", " 등이 있습니다."]]),
   ("intro",
    [sentence [braced "region", braced "josa region '은/는'", " 다양한 볼거리와 먹거리가 모여 있는 지역입니다."],
     sentence [braced "region", "에는 둘러볼 만한 장소가 많습니다."],
     sentence [braced "region", braced "josa region '을/를'", " 처음 찾는 분들을 위해 주요 장소를 정리했습니다."]])]

def eventPatterns : PatternCategory :=
  [("closing",
    [sentence ["자세한 일정은 주최 측 공지를 확인해 주세요."],
     sentence ["현장 사정에 따라 프로그램이 바뀔 수 있습니다."]]),
   ("intro",
    [sentence [braced "name", braced "josa name '이/가'", " ", braced "region", "에서 열립니다."],
     sentence ["올해도 ", braced "region", "에서 ", braced "name", braced "josa name '을/를'", " 만날 수 있습니다."],
     sentence [braced "region", "의 대표 행사인 ", braced "name", braced "josa name '이/가'", " 돌아왔습니다."]]),
   ("schedule",
    [sentence [braced "#if startDate", "행사 기간은 ", braced "startDate", "부터 ", braced "endDate", "까지입니다.",
      braced "/if"],
     sentence [braced "#if startDate", braced "startDate", "에 시작해 ", braced "endDate", "에 막을 내립니다.", braced "/if"]])]

def placePatterns : PatternCategory :=
  [("atmosphere",
    [sentence [braced "#if tags", braced "#each tags", braced "#if @first", braced "else", ", ", braced "/if",
      braced "this", braced "/each", " 분위기로 알려져 있습니다.", braced "/if"],
     sentence ["방문객들은 ", braced "name", "의 편안한 분위기를 가장 먼저 이야기합니다."],
     sentence [braced "#if rating", "평균 평점 ", braced "rating", "점으로 방문객 만족도가 높은 편입니다.", braced "/if"]]),
   ("closing",
    [sentence [braced "name", "에 대한 최신 정보는 방문 전에 한 번 더 확인해 주세요."],
     sentence ["운영 시간과 휴무일은 변동될 수 있으니 미리 확인하시기 바랍니다."],
     sentence [braced "name", "에서 즐거운 시간 보내시길 바랍니다."]]),
   ("intro",
    [sentence [braced "name", braced "josa name '은/는'", " ", braced "region", "에 자리한 ", braced "category", "입니다."],
     sentence [braced "region", "에서 ", braced "category", braced "josa category '을/를'", " 찾는다면 ", braced "name",
      braced "josa name '이/가'", " 좋은 선택입니다."],
     sentence [braced "name", braced "josa name '은/는'", " ", braced "region", " 주민들이 즐겨 찾는 ", braced "category",
      "입니다."],
     sentence [braced "region", "의 ", braced "category", " 가운데 ", braced "name", braced "josa name '은/는'",
      " 꾸준히 사랑받는 곳입니다."]]),
   ("recommendation",
    [sentence [braced "region", braced "josa region '을/를'", " 방문한다면 ", braced "name", "에 들러 보세요."],
     sentence ["가까운 사람과 함께 ", braced "name", braced "josa name '을/를'", " 찾아보는 건 어떨까요?"],
     sentence ["주말 나들이 코스로 ", braced "name", braced "josa name '을/를'", " 추천합니다."]])]

def builtin : PatternLibrary where
  version := "2025.1"
  categories := [("area", areaPatterns), ("event", eventPatterns), ("place", placePatterns)]

end PagePress.Pattern
