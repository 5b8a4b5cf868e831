-- SUMMARY: The roles of characters in clusters, words and sentences.
import Restyle.Text.Unicode.Table

/-!
# Segmentation

How text falls into clusters, words and sentences is decided by the roles of its characters. The
role of all other characters is not listed.
-/

namespace Restyle

namespace Unicode

/-- Roles in clusters. -/
def clusterRoles : Table :=
  [⟨"cr", ["d 1"]⟩,
   ⟨"cn control",
     ["0 a 1 2 1 i 2n x d 1 12m 1 3jl 1 1ks 1 2 2 o 7 1d g 17yn 1 6o c ab8 g qxs 4 43z 8 h405 w",
      "2o 3k 6o 2s0"]⟩,
   ⟨"ex extend",
     ["lc 34 7n 7 7b 19 1*3 2 1 2 1 1 20 b 1c l g 1 2t 7 2 6 2 2 1 4 z 1 u r 2j b 1m 9 9 1 o 4",
      "1 9 1 3 1 5 17 3 1n 9 16 o 1 w 1j 1*3 4 8 4 1 3 7 a 2 t 1 1m 1*3 2 4 8 1 9 1 a 2 q 1 2 2",
      "1l 1 4 2 4 2 2 3 3 1 u 2 3 1 b 2 1l 1 4 5 1 2 4 1 k 2 m 6 1 1 1m 1 1 2 1 4 8 1 7 3 a 2 u",
      "1 1n 1*3 c 1 9 1 14 1 3 1 1j 1 1 3 5 3 1 4 7 2 b 2 t 1 1m 1 2 2 1 1 3 3 1 4 7 2 b 2 s 2",
      "1l 2 1 1 2 4 8 1 9 1 a 2 t 1 20 1 4 1 2 3 1 1 8 1 29 1 2 7 c 8 2q 1 2 9 b 7 21 2 r 1*5",
      "1j e 1 5 1 2 5 b 1 10 9 1 2u 4 1 6 1 2*3 p 2 4 3 g 4 d 1 2 2 6 1 f 1 jj 3 qa 4 s 3 t 2 u",
      "2 1s 2 1 7 8 1 2 b 9 1 19 3 1 1 39 2 y 1 3a 3 4 2 9 1 6 3 63 2 2 1 1m 1 1 7 1*4 2 8 6 a",
      "2 1 1c v 1d 4 1c a 4 3 12 9 c 2 w 4 2 6 1k 1 1 2 3 1 1 5 1k 8 2 2 48 3 1 d 1 7 4 1 6 1 3",
      "2 5i 1s ek 1 5f x 2da 3 3x 1 2o w fe 6 2x 2 n9w 4 1 a w 2 28 2 7k 1 3 1 4 1 p 2 5 1 47 2",
      "q i d 1 12 8 p b 1 1 18 3 1c 1 2 4 2*3 1 10 1 1v 6 2*4 c 1 8 1 1b 1 1f 1 1 3 2 2 5 2 1 1",
      "16 2 8 1 6m 1 2 1 4 1 fn4 1 kh g*3 a6 2 gt 1 6a 1 45 5 1ae 3 1 2 5 4 14 3 4 1 4l 2 fx 4",
      "1t 5 8t 2 27 4 1y b 1d 4 3f 1 1i f 15 1 2 2 a 3 1d 4 2 2 7 1 1p 3 10 5 1 8 1q 1 c 2 1g 9",
      "1 1 8 4 2 1 2n 3 2 4 6 1 2 1 4d 1 3 8 l 2 1l 2 1*4 c 1 9 1 e 7 3 5 1v 1 2 6 1 1 2 1 1 3",
      "4 3 1 1 e 2 2d 8 2 3 1 1 n 1 29 1 2 6 1 1 2 1 1 2 1 2 6j 1 2 4 6 2 1 2 r 2 2d 8 2 1 1 2",
      "2y 1*3 2 8 2t 1*3 2 4 1 5 77 9 1 2 6t 1 a 4 4 1 40 4 2 2 4 1 w a 14 6 2 4 8 1 9 6 2 3 1a",
      "d 1 2 ba 7 1 6 1 1 2a m 2 7 1 2 1 2 3e 6 3 1 1 2 1 7 1 1 20 2 3 1*3 9n 2 b 2 1g 5 5 3 n",
      "1 44l 1 6 f 8ug c 3 3 1xc 5 1n 7 t4 1 1r 4 29 1 b 2 f57 2 3mp 1a 2 n f2 5 3 6 8 8 2 7 u",
      "4 44 3 1iz 1j 4 1e 8 1 e 1 m 5 1 f 11s 7 1 h 2 7 1 2 1 5 2s 1 4g 7 af 1 1p 4 e4 4 72 2",
      "kg 7 31 7 240 5 gx7k 2o 3k 6o"]⟩,
   ⟨"l", ["3cw 2o u0w t"]⟩,
   ⟨"lf", ["a 1"]⟩,
   ⟨"lv",
     ["xz4 1 r 1 r 1 r 1 r 1 r 1 r 1 r 1 r 1 r 1 r 1 r 1 r 1 r 1 r 1 r 1 r 1 r 1 r 1 r 1 r 1 r",
      "1 r 1 r 1 r 1 r 1 r 1 r 1 r 1 r 1 r 1 r 1 r 1 r 1 r 1 r 1 r 1 r 1 r 1 r 1 r 1 r 1 r 1 r",
      "1 r 1 r 1 r 1 r 1 r 1 r 1 r 1 r 1 r 1 r 1 r 1 r 1 r 1 r 1 r 1 r 1 r 1 r 1 r 1 r 1 r 1 r",
      "1 r 1 r 1 r 1 r 1 r 1 r 1 r 1 r 1 r 1 r 1 r 1 r 1 r 1 r 1 r 1 r 1 r 1 r 1 r 1 r 1 r 1 r",
      "1 r 1 r 1 r 1 r 1 r 1 r 1 r 1 r 1 r 1 r 1 r 1 r 1 r 1 r 1 r 1 r 1 r 1 r 1 r 1 r 1 r 1 r",
      "1 r 1 r 1 r 1 r 1 r 1 r 1 r 1 r 1 r 1 r 1 r 1 r 1 r 1 r 1 r 1 r 1 r 1 r 1 r 1 r 1 r 1 r",
      "1 r 1 r 1 r 1 r 1 r 1 r 1 r 1 r 1 r 1 r 1 r 1 r 1 r 1 r 1 r 1 r 1 r 1 r 1 r 1 r 1 r 1 r",
      "1 r 1 r 1 r 1 r 1 r 1 r 1 r 1 r 1 r 1 r 1 r 1 r 1 r 1 r 1 r 1 r 1 r 1 r 1 r 1 r 1 r 1 r",
      "1 r 1 r 1 r 1 r 1 r 1 r 1 r 1 r 1 r 1 r 1 r 1 r 1 r 1 r 1 r 1 r 1 r 1 r 1 r 1 r 1 r 1 r",
      "1 r 1 r 1 r 1 r 1 r 1 r 1 r 1 r 1 r 1 r 1 r 1 r 1 r 1 r 1 r 1 r 1 r 1 r 1 r 1 r 1 r 1 r",
      "1 r 1 r 1 r 1 r 1 r 1 r 1 r 1 r 1 r 1 r 1 r 1 r 1 r 1 r 1 r 1 r 1 r 1 r 1 r 1 r 1 r 1 r",
      "1 r 1 r 1 r 1 r 1 r 1 r 1 r 1 r 1 r 1 r 1 r 1 r 1 r 1 r 1 r 1 r 1 r 1 r 1 r 1 r 1 r 1 r",
      "1 r 1 r 1 r 1 r 1 r 1 r 1 r 1 r 1 r 1 r 1 r 1 r 1 r 1 r 1 r 1 r 1 r 1 r 1 r 1 r 1 r 1 r",
      "1 r 1 r 1 r 1 r 1 r 1 r 1 r 1 r 1 r 1 r 1 r 1 r 1 r 1 r 1 r 1 r 1 r 1 r 1 r 1 r 1 r 1 r",
      "1 r 1 r 1 r 1 r 1 r 1 r 1 r 1 r 1 r 1 r 1 r 1 r 1 r 1 r 1 r 1 r 1 r 1 r 1 r 1 r 1 r 1 r",
      "1 r 1 r 1 r 1 r 1 r 1 r 1 r 1 r 1 r 1 r 1 r 1 r 1 r 1 r 1 r 1 r 1 r 1 r 1 r 1 r 1 r 1 r",
      "1 r 1 r 1 r 1 r 1 r 1 r 1 r 1 r 1 r 1 r 1 r 1 r 1 r 1 r 1 r 1 r 1 r 1 r 1 r 1 r 1 r 1 r",
      "1 r 1 r 1 r 1 r 1 r 1 r 1 r 1 r 1 r 1 r 1 r 1 r 1 r 1 r 1 r 1 r 1 r 1 r 1 r 1 r 1 r 1 r",
      "1 r 1 r 1 r 1"]⟩,
   ⟨"lvt",
     ["xz5 r 1 r 1 r 1 r 1 r 1 r 1 r 1 r 1 r 1 r 1 r 1 r 1 r 1 r 1 r 1 r 1 r 1 r 1 r 1 r 1 r 1",
      "r 1 r 1 r 1 r 1 r 1 r 1 r 1 r 1 r 1 r 1 r 1 r 1 r 1 r 1 r 1 r 1 r 1 r 1 r 1 r 1 r 1 r 1",
      "r 1 r 1 r 1 r 1 r 1 r 1 r 1 r 1 r 1 r 1 r 1 r 1 r 1 r 1 r 1 r 1 r 1 r 1 r 1 r 1 r 1 r 1",
      "r 1 r 1 r 1 r 1 r 1 r 1 r 1 r 1 r 1 r 1 r 1 r 1 r 1 r 1 r 1 r 1 r 1 r 1 r 1 r 1 r 1 r 1",
      "r 1 r 1 r 1 r 1 r 1 r 1 r 1 r 1 r 1 r 1 r 1 r 1 r 1 r 1 r 1 r 1 r 1 r 1 r 1 r 1 r 1 r 1",
      "r 1 r 1 r 1 r 1 r 1 r 1 r 1 r 1 r 1 r 1 r 1 r 1 r 1 r 1 r 1 r 1 r 1 r 1 r 1 r 1 r 1 r 1",
      "r 1 r 1 r 1 r 1 r 1 r 1 r 1 r 1 r 1 r 1 r 1 r 1 r 1 r 1 r 1 r 1 r 1 r 1 r 1 r 1 r 1 r 1",
      "r 1 r 1 r 1 r 1 r 1 r 1 r 1 r 1 r 1 r 1 r 1 r 1 r 1 r 1 r 1 r 1 r 1 r 1 r 1 r 1 r 1 r 1",
      "r 1 r 1 r 1 r 1 r 1 r 1 r 1 r 1 r 1 r 1 r 1 r 1 r 1 r 1 r 1 r 1 r 1 r 1 r 1 r 1 r 1 r 1",
      "r 1 r 1 r 1 r 1 r 1 r 1 r 1 r 1 r 1 r 1 r 1 r 1 r 1 r 1 r 1 r 1 r 1 r 1 r 1 r 1 r 1 r 1",
      "r 1 r 1 r 1 r 1 r 1 r 1 r 1 r 1 r 1 r 1 r 1 r 1 r 1 r 1 r 1 r 1 r 1 r 1 r 1 r 1 r 1 r 1",
      "r 1 r 1 r 1 r 1 r 1 r 1 r 1 r 1 r 1 r 1 r 1 r 1 r 1 r 1 r 1 r 1 r 1 r 1 r 1 r 1 r 1 r 1",
      "r 1 r 1 r 1 r 1 r 1 r 1 r 1 r 1 r 1 r 1 r 1 r 1 r 1 r 1 r 1 r 1 r 1 r 1 r 1 r 1 r 1 r 1",
      "r 1 r 1 r 1 r 1 r 1 r 1 r 1 r 1 r 1 r 1 r 1 r 1 r 1 r 1 r 1 r 1 r 1 r 1 r 1 r 1 r 1 r 1",
      "r 1 r 1 r 1 r 1 r 1 r 1 r 1 r 1 r 1 r 1 r 1 r 1 r 1 r 1 r 1 r 1 r 1 r 1 r 1 r 1 r 1 r 1",
      "r 1 r 1 r 1 r 1 r 1 r 1 r 1 r 1 r 1 r 1 r 1 r 1 r 1 r 1 r 1 r 1 r 1 r 1 r 1 r 1 r 1 r 1",
      "r 1 r 1 r 1 r 1 r 1 r 1 r 1 r 1 r 1 r 1 r 1 r 1 r 1 r 1 r 1 r 1 r 1 r 1 r 1 r 1 r 1 r 1",
      "r 1 r 1 r 1 r 1 r 1 r 1 r 1 r 1 r 1 r 1 r 1 r 1 r 1 r 1 r 1 r 1 r 1 r 1 r 1 r 1 r 1 r 1",
      "r 1 r 1 r 1 r"]⟩,
   ⟨"pp prepend",
     ["16o 6 5z 1 1d 1 ao 2 28 1 vf 1 1f8u 1 f 1 6s 2 el 1 12l 1*3 6w 1 21 6 jg 1 cb 1"]⟩,
   ⟨"ri regionalindicator", ["2qcm q"]⟩,
   ⟨"sm spacingmark",
     ["1s3 1 1j 1 2 3 8 4 1 2 1e 2 1n 2 6 2*3 1i 1 1m 3 1u 1 1m 3 8 1 1 2 1h 2 1o 1 6 2*3 36 1",
      "1 2 3 3 1 3 1g 3 1p 4 1p 2 1m 1 2 1 1 2 1a 1 e 2 1n 2 5 3 1 3 1h 2 24 2 6 7 j 2 1r 1 3j",
      "1 3u 2 1r 1 4x 1 9 2 p 2 18 1 1f5 1 7 8 1 2 9m 4 2 3 4 2 1 6 68 2 1m 1*3 l 6 41 1 1l 4",
      "1s 1 u 1 4 2 1r 1 2 3 1 1 1h 8 8 2 4r 1 l 1 rhn 2 2 1 2g 2 1e g 3y 1 1c 1 1c 2 4 2*3 33",
      "2*3 o 1 4d 1 2 2 5 1 6l 2 1 2 1 2 1 1 jrn 1*3 3j 1 19 3 4 2 37 1 o 2 1n 1 1c 3 9 1 e 1",
      "2l 3 3 2 4s 3 v 2 1n 1 1 4 2*4 l 2 2d 2 f 1 1 2 2v 3 8 2 3 1 2z 2 6 1 1 2 1 1 2 1 6m 2 6",
      "4 2 1 35 3 8 2 1 1 31 1 1 2 32 1 7 1 79 3 9 1 6w 5 1 2 7 1*3 3y 3 8 4 4 1 2c 1 t 2 1q 1",
      "bb 1 e 1 2y 1 7 1 2 1 5x 5 4 2 1 1 9q 2 c 1 1c 2 8 2 d0q 3 2sk 1j"]⟩,
   ⟨"t", ["3hk 2g 132j 1d"]⟩,
   ⟨"v", ["3fk 20 1348 n tjw 1 3 4"]⟩,
   ⟨"zwj", ["6bx 1"]⟩]

/-- Roles in words. -/
def wordRoles : Table :=
  [⟨"le aletter",
     ["1t q 6 q 1b 1 a 1 4 1 5 n 1 v 1 dc 6 y 34 5 1 2 2 4 1 1 6 1 1 3 1*3 k 1 2b 1 3v 8 4m 1",
      "12 2 4 1*3 15 1 1 2w 1 18 17 z 2 1 2r 1 1 f 2 7 2 a 3 2 1 f 2 1 u t 2h b 1 o x 9 2 4 1 5",
      "m 4 1 9 1 3 1 n p 7 b 5 o 1 6 h 16 1m 1i 3 1 i 1 7 a f g 4 8 2*3 m 1 7 1 1 3 4 3 1 g 1 d",
      "2 1 3 e 2 a 1 8 6 4 2 2 m 1 7 1 2 1 2 1 2 v 4 1 1 j 3 g 9 1 3 1 m 1 7 1 2 1 5 3 1 i 1 f",
      "2 n 1 b 8 2*3 m 1 7 1 2 1 5 3 1 u 2 1 3 f 1 h 1 1 6 3 3 1 4 3 2 1*3 2 3 2 3*3 c m 1 1g 8",
      "1 3 1 n 1 g 3 1 q 3 2 1 2 2 u 1 4 8 1 3 1 n 1 a 1 5 3 1 v 2 1 2 f 2 h 9 1 3 1 15 2 1 g 1",
      "5 3 8 3 o 6 5 i 3 o 1 9 1 1 2 7 8p 1 1r 8 1 10 r 5 7n 12 1 1 5 1 2 17 1 99 1 4 2 7 1*3 4",
      "2 15 1 4 2 x 1 4 2 7 1*3 4 2 f 1 1l 1 4 2 1v 11 g g 2e 2 6 3 h8 2 h 1 q 5 23 3 b 7 i d j",
      "e i e d 1 3 4v 2h 7 5 2 y 1 1 5 1y a v 69 n 6m 1b h 8 1i u d 2 a 18 q 10 15 3 a 10 2 b 5",
      "17 2 3 15 4 1 6 1 2 3 1 5 5c 1s 7q 2 6 2 12 2 6 2 8 1*7 v 2 1h 1 7 1 1 3 3 1 7 3 4 2 6 4",
      "d 5 3 1 7 38 1 d 1 g d 2t 1 4 1 2 a 1 1 3 5 6 1*6 4 1 b 2 4 5 5 4 1 h 15 ml 1g 1ee 6d 6",
      "4 3 2 c 12 1 1 5 1 2 1k 7 1 g n 9 7 1 7 1 7 1 7 1 7 1 7 1 7 1 7 28 1 d1 1 1h 2 5k 17 1",
      "2m h w ls0 wd 1v 1a 2 7h 3 g a 2 k 1b g v 2 28 o 5i 2 2 1*3 8 l g 1 3 1 4 1 n t 1g e 1e",
      "1q 6 3 1 1 2 b s a n p t 7 1b s 1 1c 15 n 3 1 8 44 b 7 3 c 6 2 6 2 6 9 7 1 7 1 1m 6 37 t",
      "8mc c n 4 1d 6x0 7 c 5 1k 2q x a3 i 1s 2 1i 14 c 38 5 1 3r 10 q 6 q 1x v 3 6 2 6 2 6 2 3",
      "z c 1 q 1 j 1 2 1 f 2 e y 3f 1x 1h 7f t 3 1d 1b w d u 5 12 a u 2 10 4 8 1 5 16 4e i 10 4",
      "10 4 14 8 1g c b 1 f 1 7 1 2 1 b 1 f 1 7 1 2 3 1g c 8n 9 m a 8 o 6 1 16 1 9 1x 6 2 1 1",
      "18 1 2 3 1 2 n a n 9 v 1t j 1 2 a m a q 1y 1k 6 2 1s 1 f 4 1 3 1 t 16 t 3 t z 8 1 s r 1i",
      "a m a j d i 32 21 1j 1f d 1f d 10 12 s 9 n 6y 16 6 2 g 3 1n t a 1 8 m 16 i 1a l r n c 1h",
      "1l 2 2 1 d 19 w p q 10 t 1 2 1 8 z 3 1 c 1c e 4 l 1*3 z i 1 p j 2 1r 7 1*3 4 1 f 1 a 7",
      "1b 12 8 2*3 m 1 7 1 2 1 5 3 1 i 1 c 5 u a 1 1 2 1 1 12 1 1 p 1*3 18 1h i 4 k 3 u 1c k 2",
      "1 1 54 1b 15 4 10 1c k 1 1n 17 d 1 93 18 38 1s v 8 2 1 2 8 1 2 1 o f 1*3 2m 8 2 13 g 1*3",
      "s 1 a 14 7 1 l 1 b 1a j 1 i 21 5j x v 9 1 11 h 1 1d u 34 7 1 2 1 12 l 1 p 6 1 2 1 w e 1",
      "93 j f 1 1 d 1 y 3g 1 27 pm 2u 33 h 5g 218 2p f ts h 6 p 32z 5 g7 5a1 u 1cy ft 7 v h 27",
      "h u i 1c g 4 v l 5 j c0 19 5v 1s 3k 23 5 1 1u d 1s 2 1 1 f18 2z 5 d 3 9 7 a 4me 2d 1 1z",
      "1 2 2 1 2*3 4 1 c 1*3 7 1 1t 1 4 2 8 1 7 1 s 1 4 1 5 1 1 3 7 1 9g 2 p 1 p 1 v 1 p 1 v 1",
      "p 1 v 1 p 1 v 1 p 1 8 1f8 v 6 6 79 1q 42 19 a 7 g 1 8x u i 18 dg s 6c u 2 1 dr 7 1 4 1 2",
      "1 f 1 5h 1n 1w 7 1 xg 4 1 r 1 2 1 1 2 1 1 a 1 4 1*4 6 1 4 1*6 3 1 2 1 1 2 1*a 2 1 1 2 4",
      "1 7 1 4 1 4 1*3 a 1 h 5 3 1 5 1 h hg q 6 q 6 q"]⟩,
   ⟨"cr", ["d 1"]⟩,
   ⟨"dq doublequote", ["y 1"]⟩,
   ⟨"extend",
     ["lc 34 7n 7 7b 19 1*3 2 1 2 1 1 20 b 1c l g 1 2t 7 2 6 2 2 1 4 z 1 u r 2j b 1m 9 9 1 o 4",
      "1 9 1 3 1 5 17 3 1n 9 16 o 1 x 1i 3 1 i 1 7 a 2 t 3 1k 1 1 7 2*3 3 9 1 a 2 q 1 2 3 1k 1",
      "1 5 4 2 2 3 3 1 u 2 3 1 b 3 1k 1 1 8 1 3 1 3 k 2 m 6 1 3 1k 1 1 7 2*3 3 7 3 a 2 u 1 1n 5",
      "3 3 1 4 9 1 14 5 1j 1 1 7 1 3 1 4 7 2 b 2 t 3 1k 1 1 7 1 3 1 4 7 2 b 2 f 1 c 4 1j 2 1 7",
      "1 3 1 4 9 1 a 2 t 3 1y 1 4 6 1*3 8 i 2 1p 1 2 7 c 8 2q 1 2 9 b 7 21 2 r 1*5 4 2 1d k 1 2",
      "5 b 1 10 9 1 2s k n 4 4 3 1 3 2 7 3 4 d c 1 1 a 4 jj 3 qa 4 s 3 t 2 u 2 1s w 9 1 19 3 1",
      "1 39 2 y 1 3a c 4 c 63 5 1l a 1 t 2 1 1c v 1d 5 1b h 12 9 c 3 u d 1k e 1c k 48 3 1 l 4 1",
      "6 1 2 3 5i 1s ek 1 5f x 2da 3 3x 1 2o w fe 6 2x 2 n9w 4 1 a w 2 28 2 7k 1 3 1 4 1 n 5 4",
      "1 2b 2 1e i q i d 1 12 8 p d 18 4 1b e 10 1 1v e c 1 8 2 19 3 1e 1 1 3 2 2 5 2 1 1 15 5",
      "5 2 6k 8 1 2 fn4 1 kh g*3 a6 2 gt 1 6a 1 45 5 1ae 3 1 2 5 4 14 3 4 1 4l 2 fx 4 1t 5 8t 2",
      "27 4 1y b 1d 4 3e 3 1h f 15 1 2 2 a 4 19 b 7 1 1p 3 10 e g 2 18 1 c 3 1c e 8 4 1 2 2k c",
      "6 1 2 1 4d c l 4 1j 2 1 7 2*3 3 9 1 a 2 2 7 3 5 1v 9 1 1 2 1 1 4 1 5 1 1 e 2 2a i n 1 29",
      "k 6j 7 2 9 r 2 2a h 2y d 2t f 74 f 6t 6 1 2 2 4 1*3 2 3x 7 2 7 3 1 s a 14 7 1 4 8 1 9 b",
      "1a g b9 8 1 8 2a m 1 e 3e 6 3 1 1 2 1 7 1 1 1u 5 1 2 1 5 9n 4 9 2 1 1 1c 7 3 5 n 1 44l 1",
      "6 f 8ug i 1xc 5 1n 7 t4 1 1 1j 7 4 29 1 b 2 f57 2 3mp 1a 2 n f2 5 3 6 8 8 2 7 u 4 44 3",
      "1iz 1j 4 1e 8 1 e 1 m 5 1 f 11s 7 1 h 2 7 1 2 1 5 2s 1 4g 7 af 1 1p 4 e4 4 72 2 kg 7 31",
      "7 240 5 gx7k 2o 3k 6o"]⟩,
   ⟨"ex extendnumlet", ["2n 1 6a7 1 f 2 j 1 17tq 2 o 3 6n 1"]⟩,
   ⟨"fo format", ["4t 1 12m 1 3jl 1 1kv 2 q 5 1d 5 1 a 17yn 1 6x 3 ab8 g qxs 4 43z 8 h406 1"]⟩,
   ⟨"hl hebrewletter", ["15c r 4 4 1cfe 1 1 a 1 d 1 5 1*3 2 1 2 1 a"]⟩,
   ⟨"ka katakana",
     ["9ip 5 2t 2 3 2j 1 4 6o g 5s 1b 1 2g 14b2 1k ytu 4 1 7 1 2 1 1 7z 3 1e 1 e 4"]⟩,
   ⟨"lf", ["a 1"]⟩,
   ⟨"ml midletter", ["1m 1 3g 1 jz 1 d3 1 44 1 56a 1 17u3 1 1t 1 5g 1"]⟩,
   ⟨"mn midnum", ["18 1 e 1 n6 1 ei 1 3m 2 2m 1 az 1 4sr 1 17uz 1 3 1 53 1 e 1"]⟩,
   ⟨"mb midnumlet", ["1a 1 6ax 2 a 1 17vx 1 50 1 6 1"]⟩,
   ⟨"nl newline", ["b 2 3c 1 68y 2"]⟩,
   ⟨"nu numeric",
     ["1c a 152 6 2i a 1 1 35 1 i a 5i a 5i 2 28 1 3n a 3a a 3a a 3a a 3a a 3a a 3a a 3a a 3a a",
      "3a a 2o a 3a a 1y a 7q a 1y a 1fq a 12 a 8c a 3k b 4l a 6 a 52 a 2e a 3q a 6 a r7q a iu",
      "a 12 a 5i a m a 2e a ba a geu a 13a a 1om a 6 a m4 a 25 1 f 1 y a 1o a 40 a 7q a 9i a 3a",
      "a ae a 2u a 6 k 24 a bq a 2u a ie a 2e a 6u a 1y a bq a d06 a 1t2 a 2e a 3q a eu a iuu a",
      "250 1e 1ts a bq a dy a 6v a np a 3o6 a"]⟩,
   ⟨"ri regionalindicator", ["2qcm q"]⟩,
   ⟨"sq singlequote", ["13 1"]⟩,
   ⟨"wsegspace", ["w 1 4f3 1 1vj 7 1 3 2c 1 334 1"]⟩,
   ⟨"zwj", ["6bx 1"]⟩]

/-- Roles in sentences. -/
def sentenceRoles : Table :=
  [⟨"at aterm", ["1a 1 6b9 1 17vx 1 57 1"]⟩,
   ⟨"cr", ["d 1"]⟩,
   ⟨"cl close",
     ["y 1 4 3 1d 1*3 t 1*3 19 1 f 1 2v2 4 1gd 2 1vf 8 p 2 a 2 1i 2 e 2 hl 4 t 2 ts 6 7 e 27 2",
      "v a b7 m 1r 4 w 2 si e e 2 2 a o 1 i 8 bv a 2 8 1 3 14im 2 5z 2 s g 2 2 g 6 4p 2 1d 1*3",
      "t 1*4 2 1 2 1csy 3"]⟩,
   ⟨"ex extend",
     ["lc 34 7n 7 7b 19 1*3 2 1 2 1 1 20 b 1c l g 1 2t 7 2 6 2 2 1 4 z 1 u r 2j b 1m 9 9 1 o 4",
      "1 9 1 3 1 5 17 3 1n 9 16 o 1 x 1i 3 1 i 1 7 a 2 t 3 1k 1 1 7 2*3 3 9 1 a 2 q 1 2 3 1k 1",
      "1 5 4 2 2 3 3 1 u 2 3 1 b 3 1k 1 1 8 1 3 1 3 k 2 m 6 1 3 1k 1 1 7 2*3 3 7 3 a 2 u 1 1n 5",
      "3 3 1 4 9 1 14 5 1j 1 1 7 1 3 1 4 7 2 b 2 t 3 1k 1 1 7 1 3 1 4 7 2 b 2 f 1 c 4 1j 2 1 7",
      "1 3 1 4 9 1 a 2 t 3 1y 1 4 6 1*3 8 i 2 1p 1 2 7 c 8 2q 1 2 9 b 7 21 2 r 1*5 4 2 1d k 1 2",
      "5 b 1 10 9 1 2s k n 4 4 3 1 3 2 7 3 4 d c 1 1 a 4 jj 3 qa 4 s 3 t 2 u 2 1s w 9 1 19 3 1",
      "1 39 2 y 1 3a c 4 c 63 5 1l a 1 t 2 1 1c v 1d 5 1b h 12 9 c 3 u d 1k e 1c k 48 3 1 l 4 1",
      "6 1 2 3 5i 1s ek 2 5e x 2da 3 3x 1 2o w fe 6 2x 2 n9w 4 1 a w 2 28 2 7k 1 3 1 4 1 n 5 4",
      "1 2b 2 1e i q i d 1 12 8 p d 18 4 1b e 10 1 1v e c 1 8 2 19 3 1e 1 1 3 2 2 5 2 1 1 15 5",
      "5 2 6k 8 1 2 fn4 1 kh g*3 a6 2 gt 1 6a 1 45 5 1ae 3 1 2 5 4 14 3 4 1 4l 2 fx 4 1t 5 8t 2",
      "27 4 1y b 1d 4 3e 3 1h f 15 1 2 2 a 4 19 b 7 1 1p 3 10 e g 2 18 1 c 3 1c e 8 4 1 2 2k c",
      "6 1 2 1 4d c l 4 1j 2 1 7 2*3 3 9 1 a 2 2 7 3 5 1v 9 1 1 2 1 1 4 1 5 1 1 e 2 2a i n 1 29",
      "k 6j 7 2 9 r 2 2a h 2y d 2t f 74 f 6t 6 1 2 2 4 1*3 2 3x 7 2 7 3 1 s a 14 7 1 4 8 1 9 b",
      "1a g b9 8 1 8 2a m 1 e 3e 6 3 1 1 2 1 7 1 1 1u 5 1 2 1 5 9n 4 9 2 1 1 1c 7 3 5 n 1 44l 1",
      "6 f 8ug i 1xc 5 1n 7 t4 1 1 1j 7 4 29 1 b 2 f57 2 3mp 1a 2 n f2 5 3 6 8 8 2 7 u 4 44 3",
      "1iz 1j 4 1e 8 1 e 1 m 5 1 f 11s 7 1 h 2 7 1 2 1 5 2s 1 4g 7 af 1 1p 4 e4 4 72 2 kg 7 31",
      "7 gzbp 2o 3k 6o"]⟩,
   ⟨"fo format",
     ["4t 1 12m 1 6q 1 3cu 1 1ks 1 2 2 q 5 1d 5 1 a 17yn 1 6x 3 ab8 g qxs 4 43z 8 h406 1"]⟩,
   ⟨"lf", ["a 1"]⟩,
   ⟨"lo lower",
     ["2p q 1b 1 a 1 4 1 10 o 1 8 1*1j 2 1*f 2 1*1a 2 1*4 3 2 1*3 2 1 3 2 4 1 2 1 3 3 2 1 2 1*5",
      "2 1 1 2 1 1 2 1 3 1*3 2*3 3 6 1 2 1 2 1*g 2 1*h 2 2 1*3 3 1*1m 7 2 1 2 2 1 1 4 1*8 1x 1",
      "10 7 2 u 5 3w 1*3 3 1 2 4 i 1 r z 1 2 3 3 1*n 5 1 1 2 1 2 2 1f 1c 1*y 9 1*1h 2 1*c 2",
      "1*2o 1c 15 29f 1 l7 6 1oi 9 1 1 39 5c 1t 1*44 9 1*2p 9 8 6 a 8*4 6 a 8*4 e 2 8*6 5 1 2 6",
      "1 3 3 1 2 8 4 2 2 8 8 a 3 1 2 3d 1 d 1 g d 31 1 3 2 3 1 r 1 4 1 4 1 2 2 8 4 4 1 x g 4 1",
      "nf q 1fq 1c 1 1 3 2 1*6 4 1 1 2 1 8 3 1*2q 2 7 1*3 4 1 c 12 1 1 5 1 nwz 1*19 j 1*q 3 3p",
      "1*c 3 1*1p a 1*4 2 1*9 4 1*3 2 1 1 3 1*k 5 1 5 1*f 4 1*3 2 1 3 1*b m 3 1*3 3 mt 17 1 e 6",
      "28 fnk 7 c 5 tl q y5 14 3s 10 4b b 1 f 1 7 1 2 cj 1 2 3 1 16 1 9 zp 1f 3h m 27u w gw0 w",
      "k2i q q 7 1 i q*3 4 1*3 7 1 b q*h s s p 1 6 q p 1 6 q p 1 6 q p 1 6 q p 1 6 1 1 1f8 a 1",
      "k 6 6 79 1q 1pw y"]⟩,
   ⟨"nu numeric",
     ["1c a 152 6 2i a 1 2 34 1 i a 5i a 5i 2 28 1 3n a 3a a 3a a 3a a 3a a 3a a 3a a 3a a 3a a",
      "3a a 2o a 3a a 1y a 7q a 1y a 1fq a 12 a 8c a 3k b 4l a 6 a 52 a 2e a 3q a 6 a r7q a iu",
      "a 12 a 5i a m a 2e a ba a geu a 13a a 1om a 6 a m4 a 25 1 f 1 y a 1o a 40 a 7q a 9i a 3a",
      "a ae a 2u a 6 k 24 a bq a 2u a ie a 2e a 6u a 1y a bq a d06 a 1t2 a 2e a 3q a eu a iuu a",
      "250 1e 1ts a bq a dy a 6v a np a 3o6 a"]⟩,
   ⟨"le oletter",
     ["cb 1 4 4 5s 1 10 7 6 c q 1*3 3p 1 dg 1 3a r 4 5 18 17 z 2 1 2r 1 1 f 2 7 2 a 3 2 1 g 1 1",
      "u t 2h b 1 o x 9 2 4 1 5 m 4 1 9 1 3 1 n p 7 b 5 o 1 6 h 16 1m 1i 3 1 i 1 7 a f g 4 8",
      "2*3 m 1 7 1 1 3 4 3 1 g 1 d 2 1 3 e 2 a 1 8 6 4 2 2 m 1 7 1 2 1 2 1 2 v 4 1 1 j 3 g 9 1",
      "3 1 m 1 7 1 2 1 5 3 1 i 1 f 2 n 1 b 8 2*3 m 1 7 1 2 1 5 3 1 u 2 1 3 f 1 h 1 1 6 3 3 1 4",
      "3 2 1*3 2 3 2 3*3 c m 1 1g 8 1 3 1 n 1 g 3 1 q 3 2 1 2 2 u 1 4 8 1 3 1 n 1 a 1 5 3 1 v 2",
      "1 2 f 2 h 9 1 3 1 15 2 1 g 1 5 3 8 3 o 6 5 i 3 o 1 9 1 1 2 7 1m 1c 1 2 c 7 1m 2 1*3 5 1",
      "o 1*3 a 1 2 9 1 2 5 1 1 l 4 w 1 1r 8 1 10 r 5 37 17 k 1 g 6 4 4 3 1 3 2 7 3 4 d c 1 1t",
      "17 2 98 1 4 2 7 1*3 4 2 15 1 4 2 x 1 4 2 7 1*3 4 2 f 1 1l 1 4 2 1v 11 g 35 h8 2 h 1 q 5",
      "23 3 b 7 i d j e i e d 1 3 f 1g z 1 4 1 1v 2h 7 5 2 y 1 1 5 1y a v 1d u 2 5 b 18 4 q 1i",
      "n 9 1h 2a 1 2l 1b h 8 1i u d 2 a 18 q 10 15 3 a 10 i 17 2 3 15 4 1 6 1 2 3 1 u2 4 1z 3 2",
      "4 2av 1k 7 1 g n 9 7 1 7 1 7 1 7 1 7 1 7 1 7 1 7 28 1 d1 3 p 9 7 5 2 5 4 2e 6 3 1 2i 1 4",
      "5 17 1 2m h w 1c g e8 534 1s h3h 1v 1a 2 7h 3 g a 2 1u 1 g 1 w 28 13 9 2w 1 6 1 2v 1 3 7",
      "1 3 1 4 1 n t 1g e 1e 1q 6 3 1 1 2 b s a n p t 7 1b s 1 g 5 1 a a 5 1 15 n 3 1 8 k n 3 1",
      "3 1e 1 1 3 2 2 5 2 1*3 o 3 2 b 7 3 c 6 2 6 2 6 9 7 1 7 41 z t 8mc c n 4 1d 6is a6 2 2y",
      "1v 1 1 a 1 d 1 5 1*3 2 1 2 1 30 x a3 i 1s 2 1i 14 c 38 5 1 3r 2x 1k 2 v 3 6 2 6 2 6 2 3",
      "z c 1 q 1 j 1 2 1 f 2 e y 3f 1x 1h 7f t 3 1d 1b w d u 5 12 a u 2 10 4 8 1 5 3e 26 2q 14",
      "8 1g 2k 1g c 8n 9 m a 8 p 2 3h 6 2 1 1 18 1 2 3 1 2 n a n 9 v 1t j 1 2 a m a q 1y 1k 6 2",
      "1s 1 f 4 1 3 1 t 16 t 3 t z 8 1 s r 1i a m a j d i 32 21 53 10 12 6 v 1 7k 16 6 2 g 3 1n",
      "t a 1 8 m 16 i 1a l r n c 1h 1l 2 2 1 d 19 w p q 10 t 1 2 1 8 z 3 1 c 1c e 4 l 1*3 z i 1",
      "p j 2 1r 7 1*3 4 1 f 1 a 7 1b 12 8 2*3 m 1 7 1 2 1 5 3 1 i 1 c 5 u a 1 1 2 1 1 12 1 1 p",
      "1*3 18 1h i 4 k 3 u 1c k 2 1 1 54 1b 15 4 10 1c k 1 1n 17 d 1 1z r 11 7 55 18 5v 8 2 1 2",
      "8 1 2 1 o f 1*3 2m 8 2 13 g 1*3 s 1 a 14 7 1 l 1 b 1a j 1 i 21 5j x v 9 1 11 h 1 1d u 34",
      "7 1 2 1 12 l 1 p 6 1 2 1 w e 1 93 j f 1 1 d 1 y 3g 1 27 pm 2u 33 h 5g 218 2p f ts h 6 p",
      "32z 5 g7 5a1 u 1cy ft 7 v h 27 h u i 1c g 4 v l 5 j c0 19 b7 23 5 1 1u d 1s 2 1 1 s 4qg",
      "8 ye 15 a 6w7 4 1 7 1 2 1 83 f 1 t 3 2 1 e 4 8 b0 1s4 2z 5 d 3 9 7 a 6sw 1 dx 19 a 7 g 1",
      "8x u i 18 dg s 6c u 2 1 dr 7 1 4 1 2 1 f 1 5h 3q 1 xg 4 1 r 1 2 1 1 2 1 1 a 1 4 1*4 6 1",
      "4 1*6 3 1 2 1 1 2 1*a 2 1 1 2 4 1 7 1 4 1 4 1*3 a 1 h 5 3 1 5 1 h 3es wyo w 37e 6 66 2",
      "4g2 e 5rl f ha 1wi f2 15u 3t7 5 38g"]⟩,
   ⟨"sc scontinue",
     ["18 2 c 2 n6 1 da 1 4u 2 dm 1 361 1 5 1 1l6 2 358 1 14pa 2 1 2 s 2 t 2*4 1 a 1 4o 2 c 2",
      "20 1"]⟩,
   ⟨"st sterm",
     ["x 1 t 1 11l 1 43 3 50 1 17 3 6u 1 1p 1*3 3 2 85 2 1d0 2 ly 1 4 2 lh 1 5i 2 4d 2 19 1 5 1",
      "8q 2 9u 4 4i 2 a 2*3 t 3 57 2 1t 2 qk 2 9 3 2i7 3 8i 1 d 1 m 2 bx 1 n3w 1 7i 2 6b 1 3 1",
      "am 2 2e 2 2n 1 48 2 43 3 40 2 6x 1 g86 1 2 2 1r 2 4p 1 t 1 1t 1 25w 2 zh 5 18 4 59 2 39",
      "4 3j 3 3l 2 6 1 g 2 2g 2 1 2 30 1 8a 2 39 2 ad 2 5 f 2x 2 6x 3 ed 1*3 6z 2 2f 2 bo 2 j8",
      "2 22 2 euh 2 3p 1 1t 2 b 1 fd 2 88 1 feu 1 5wo 1"]⟩,
   ⟨"se sep", ["3p 1 68y 2"]⟩,
   ⟨"sp", ["9 1 1 2 j 1 3j 1 4bj 1 1vj b 10 1 1b 1 334 1"]⟩,
   ⟨"up upper",
     ["1t q 2t n 1 7 x 1*1j 2 1*f 2 1*1a 2 1*4 3 2 1*3 2 1 3 2 4 1 2 1 3 3 2 1 2 1*5 2 1 1 2 1",
      "1 2 1 3 1*3 2 3 1 7 2 1 2 1 2 1*g 2 1*h 2 2 1*3 3 1*1m 7 2 1 2 2 1 1 4 1*8 81 1*3 3 1 8",
      "1 6 1 1 3 1*3 2 1 h 1 9 z 1 2 3 3 1*n 5 1 2 1 1 2 2 1f 1c 1*x 9 1*1i 2 1*c 2 1*2n 2 12",
      "289 12 1 1 5 1 k2 2e 1oz 1 ae 1*45 9 1*2p 9 8 8 6 a 8*4 6 b 1*7 8 8 o 8*6 5 b 5 b 4 c 5",
      "b 5 79 1 4 1 3 3 2 3 2 1 3 5 6 1*6 4 2 4 a 2 5 1 q g j 1 mq q 1f4 1c 1c 1 1 3 2 1*6 4 1",
      "1 2 1 8 3 1*2q 8 1*3 4 1 nyl 1*19 j 1*r 3r 1*d 3 1*1p a 1*4 2 1*8 4 1*3 2 1*3 3 1*k 5 1",
      "5 1*f 4 1*3 2 3 1 5 1*7 o 1 h7v q xx 14 3s 10 4c b 1 f 1 7 1 2 1d6 1f 4d m 27u w gw0 w",
      "k2o q*6 1 1 2 2 1 2*3 4 1 8 q*3 2 1 4 2 8 1 7 r 2 1 4 1 5 1 1 3 7 r q*b u p x p x p x p",
      "x p x 1 3ed y 1la q 6 q 6 q"]⟩]

end Unicode

end Restyle
