-- SUMMARY: General categories of characters.
import Restyle.Text.Unicode.Table

/-!
# General categories

Every character has one category. Categories are named by two letters, and some of them together by
the letter that their names share.
-/

namespace Restyle

namespace Unicode

/-- The characters of each category. -/
def categories : Table :=
  [⟨"cc cntrl control", ["0 w 2n x"]⟩,
   ⟨"cf format",
     ["4t 1 11u 6 m 1 5c 1 1d 1 ao 2 28 1 2zv 1 1ks 5 q 5 1d 5 1 a 17yn 1 6x 3 3b5 1 f 1 6zm g",
      "qxs 4 43z 8 h406 1 u 2o"]⟩,
   ⟨"cn unassigned",
     ["oo 2 6 4 7 1*3 k 1 b1 1 12 2 1e 2 3 1 1j 8 r 4 6 b 7i 1 1o 2 2t e 1n 2 1d 2 f 1 s 2 1 1",
      "b 5 v 1 2 5 6l 1 8 2*3 m 1 7 1 1 3 4 2 9 2*3 4 8 1 4 2 1 5 2 p 2 3 1 6 4 2 2 m 1 7 1 2 1",
      "2 1 2 2 1 1 5 4 2 2 3 3 1 7 4 1 1 7 h a 3 1 9 1 3 1 m 1 7 1 2 1 5 2 a 1 3 1 3 2 1 f 4 2",
      "c 7 7 1 3 1 8 2*3 m 1 7 1 2 1 5 2 9 2*3 3 7 3 4 2 1 5 2 i a 2 1 6 3 3 1 4 3 2 1*3 2 3 2",
      "3*3 c 4 5 3 3 1 4 2 1 6 1 e l 5 d 1 3 1 n 1 g 2 9 1 3 1 4 7 2 1 3 2 1 2 4 2 a 7 m 1 3 1",
      "n 1 a 1 5 2 9 1 3 1 4 7 2 6 2 1 4 2 a 1 3 c d 1 3 1 1f 1 3 1 6 4 g 2 q 1 3 1 i 3 o 1 9 1",
      "1 2 7 3 1 4 6 1*3 8 6 a 2 3 c 1m 4 t 11 2 1*3 5 1 o 1*3 n 2 5 1*3 7 1 a 2 4 w 20 1 10 4",
      "13 1 10 1 f 1 d 11 5i 1 1 5 1 2 ah 1 4 2 7 1*3 4 2 15 1 4 2 x 1 4 2 7 1*3 4 2 f 1 1l 1 4",
      "2 1v 2 w 3 q 6 2e 2 6 2 il 3 2h 7 m 9 o 9 k c d 1 3 1 2 c 2m 2 a 6 a 6 q 6 2h 7 17 5 1y",
      "a v 1 c 4 c 4 1 3 16 2 5 b 18 4 q 6 b 3 1q 2 1t 1 t 2 b 6 a 6 e 2 v 1d 25 1 4m 8 1o 3 f",
      "3 1q 5 17 2 b 8 17 5 eu 2 6 2 12 2 6 2 8 1*7 v 2 1h 1 f 1 e 2 6 1 j 2 3 1 9 1 2t 1 c 2 r",
      "1 d 3 x f x f 3w 4 ii m b l 1ec 2 w 1 9p 5 19 1 1 5 1 2 1k 7 2 e o 9 7 1 7 1 7 1 7 1 7 1",
      "7 1 7 1 7 1 3i y q 1 2h c 5y q 28 1 2e 2 2v 5 17 1 2m 1 2e 9 1c 1 mlp 3 1j 9 9o k 54 8",
      "5q 2 2 1*3 8 l 1n 3 a 6 1k 8 1y 8 c 6 38 b u 3 26 1 b 4 x 1 1j 9 e 2 a 2 2v o s a 6 2 6",
      "2 6 9 7 1 7 1 1o 4 3i 2 a 6 8mc c n 4 1d 4 6su 2 2y 12 7 c 5 5 q 1 5 1*3 2 1 2 1 3h g cd",
      "2 1i 7 1 w 16 6 1f 1 j 1 4 4 5 1 3r 2 1 1 5a 3 6 2 6 2 6 2 3 3 7 1 7 a 5 2 c 1 q 1 j 1 2",
      "1 f 2 e y 3f 5 3 4 19 3 2g 1 d 3 1 1b 1a 3m t 3 1d f s 4 10 9 u 5 17 5 u 1 11 4 e 16 4e",
      "2 a 6 10 4 10 4 14 8 1g b c 1 f 1 7 1 2 1 b 1 f 1 7 1 2 3 1g c 8n 9 m a 8 o 6 1 16 1 9",
      "1x 6 2 1 1 18 1 2 3 1 2 n 1 20 8 9 1c j 1 2 5 x 3 r 5 1 1s 1k 4 k 2 1e 1 2 5 8 1 3 1 t 2",
      "3 4 a 7 9 7 1s w 13 4 c 9 1i 3 t 2 r 5 q 7 4 c 7 28 21 1j 1f d 1f 7 1a 8 a 6 12 3 t 8 2",
      "5s v 1 16 1 3 2 2 g 3 1j 18 8 16 m q 12 s k n 9 26 4 10 9 1w a 1 2 p 7 a 6 1h 1 i 8 13 9",
      "2o 1 k b i 1 1b 1q 7 1*3 4 1 f 1 b 6 1n 5 a 6 4 1 8 2*3 m 1 7 1 2 1 5 1 a 2*3 3 2 1 6 1",
      "5 7 2 7 3 5 b a 1 1 2 1 1 12 1 a 1 1 2 1 1 4 1 a 1 2 8 2 t 2k 1 5 u 20 8 a 4m 1i 2 12 y",
      "1x b a 6 d j 1m 6 a 6 k s r 2 f 4 n 55 1o 2s 2b c 8 2 1 2 8 1 2 1 u 1 2 2 c 9 a 1y 8 2",
      "1a 2 b r 20 8 2b d 21 7 a 52 y e a 6 9 1 19 1 e a t 3 w 2 m 1 e 21 7 1 2 1 18 3 1 1 2 1",
      "9 8 a 6 6 1 2 1 11 1 2 1 6 7 a 8m p 7 h 1 15 3 t 2d 1 f 1e d pn 2u 33 1 5 b 5g 218 2r d",
      "uu a 32z 5 g7 5a1 1m 1c6 ft 7 v 1 a 4 29 1 a 6 u 2 6 a 1y a a 1 7 1 l 5 j c0 1m 5i 2j 2t",
      "23 4 1l 7 h 1s 5 b 2 e 4qg 8 ye 15 a 6w7 4 1 7 1 2 1 83 f 1 t 3 2 1 e 4 8 b0 1s4 2z 5 d",
      "3 9 7 a 2 8 318 6y 6 c4 24 1a 2 n 9 38 1o 6u a 13 2 5e l 1y 3e k c k c 2f 9 p 3r 2d 1 1z",
      "1 2 2 1 2*3 4 1 c 1*3 7 1 1t 1 4 2 8 1 7 1 s 1 4 1 5 1 1 3 7 1 9g 2 84 2 ji f 5 1 f uo v",
      "6 6 5x 7 1 h 2 7 1 2 1 5 5 1q x 1 34 19 3 e 2 a 4 2 8w v h 1m 5 1 cw 16 5y 17 4 1 dc 7 1",
      "4 1 2 1 f 1 5h 2 g 15 24 4 a 4 2 lt 1w 24 1p 5e 4 1 r 1 2 1 1 2 1 1 a 1 4 1*4 6 1 4 1*6",
      "3 1 2 1 1 2 1*a 2 1 1 2 4 1 7 1 4 1 4 1*3 a 1 h 5 3 1 5 1 h 1g 2 7i 18 4 2s c f 2 f 1 f",
      "1 11 a 4u 1k t d 18 4 9 7 2 e 6 4a rc 4 h 3 d 3 3b 4 2n 6 c 4 1 f c 4 1k 8 a 6 14 8 u 2",
      "c 4 2 1q 9g c e 2 d 3 a 5 1k 7 f 2 b 6 9 7 43 1 2u sm wyo w 37e 6 66 2 4g2 e 5rl f ha",
      "1wi f2 15u 3t7 5 38g f975 1 u 2o 3k 6o 1e6o 1eke 2 1eke 2"]⟩,
   ⟨"co privateuse", ["188w 4xs jpc0 1eke 2 1eke"]⟩,
   ⟨"ll lowercaseletter",
     ["2p q 1m 1 15 o 1 8 1*1j 2 1*f 2 1*1a 2 1*4 3 2 1*3 2 1 3 2 4 1 2 1 3 3 2 1 2 1*5 2 1 1 2",
      "1 1 2 1 3 1*3 2*3 3 6 1 2 1 2 1*g 2 1*h 2 2 1*3 3 1*1m 7 2 1 2 2 1 1 4 1*8 1x 1 r 5d 1*3",
      "3 1 3 3 i 1 r z 1 2 3 3 1*n 5 1 1 2 1 2 2 1f 1c 1*y 9 1*1h 2 1*c 2 1*2o 1c 15 287 17 2 3",
      "l4 6 1oi 9 1 1 39 18 1r d 1 y 2u 1*44 9 1*2p 9 8 6 a 8*4 6 a 8*4 e 2 8*6 5 1 2 6 1 3 3 1",
      "2 8 4 2 2 8 8 a 3 1 2 7m 1 3 2 3 1 r 1 4 1 4 1 2 2 8 4 4 1 1h 1 23v 1c 1 1 3 2 1*6 4 1 1",
      "2 1 6 5 1*2q 2 7 1*3 4 1 c 12 1 1 5 1 nwz 1*19 j 1*r 3r 1*c 3 1*1r 8 1*4 2 1*9 4 1*3 2 1",
      "1 3 1*k 5 1 5 1*f 4 1*3 2 1 3 1*b q 1 3 1 mt 17 5 9 7 28 fnk 7 c 5 tl q y5 14 3s 10 4b b",
      "1 f 1 7 1 2 1dv 1f 3h m 27u w gw0 w k2i q q 7 1 i q*3 4 1*3 7 1 b q*h s s p 1 6 q p 1 6",
      "q p 1 6 q p 1 6 q p 1 6 1 1 1f8 a 1 k 6 6 1yv y"]⟩,
   ⟨"lm modifierletter",
     ["j4 i 4 c e 5 7 1*3 3p 1 5 1 da 1 6e 1 4k 2 7h 2 4 1 v 1 9 1 3 1 4g 1 4n 1 yc 1 3j 1 fp 1",
      "1cq 1 2z 1 gz 1 cw 6 4u 1r d 1 y 11 j5 1 d 1 g d 2cf 2 6p 1 5b 1 d1 1 17 5 5 1 2p 2 2l 3",
      "lxy 1 yq 6 7i 1 36 1 s 2 3d 9 28 1 n 1 2x 3 3 2 d1 1 m 1 3t 1 30 1 l 2 2v 4 9 1 gli 1 19",
      "2 1k0 6 1 16 1 9 13n 1 w 1 ij4 4 e4 3 14 2 fa d 1s 2 1 1 cng 4 1 7 1 2 9ip 1q 5l 7 q5 1",
      "v3 1"]⟩,
   ⟨"lo otherletter",
     ["4q 1 f 1 74 1 4 4 5s 1 mz r 4 4 19 w 1 a z 2 1 2r 1 1 o 2 a 3 2 1 g 1 1 u t 2h b 1 o x l",
      "m 16 p 7 b 5 o 1 6 h 15 1n 1i 3 1 i 1 7 a g f 4 8 2*3 m 1 7 1 1 3 4 3 1 g 1 d 2 1 3 e 2",
      "a 1 8 6 4 2 2 m 1 7 1 2 1 2 1 2 v 4 1 1 j 3 g 9 1 3 1 m 1 7 1 2 1 5 3 1 i 1 f 2 n 1 b 8",
      "2*3 m 1 7 1 2 1 5 3 1 u 2 1 3 f 1 h 1 1 6 3 3 1 4 3 2 1*3 2 3 2 3*3 c m 1 1g 8 1 3 1 n 1",
      "g 3 1 q 3 2 1 2 2 u 1 4 8 1 3 1 n 1 a 1 5 3 1 v 2 1 2 f 2 h 9 1 3 1 15 2 1 g 1 5 3 8 3 o",
      "6 5 i 3 o 1 9 1 1 2 7 1m 1c 1 2 c 6 1n 2 1*3 5 1 o 1*3 a 1 2 9 1 2 5 n 4 w 1 1r 8 1 10 r",
      "5 37 17 k 1 g 6 4 4 3 1 3 2 7 3 4 d c 1 35 95 1 4 2 7 1*3 4 2 15 1 4 2 x 1 4 2 7 1*3 4 2",
      "f 1 1l 1 4 2 1v 11 g 35 h8 2 h 1 q 5 23 6 8 7 i d j e i e d 1 3 f 1g 14 1 1v z 1 1h 7 5",
      "2 y 1 1 5 1y a v 1d u 2 5 b 18 4 q 1i n 9 1h 4w 1b h 8 1i u d 2 a 18 q 10 15 3 a u 35 4",
      "1 6 1 2 3 1 u2 4 2d3 1k o n 9 7 1 7 1 7 1 7 1 7 1 7 1 7 1 7 fb 1 1h 1 4 2e 8 1 1 2i 4 1",
      "5 17 1 2m h w 1c g e8 534 1s g7p 1 vr 1v 14 8 7g 4 g a 2 1u 1 1d 1y 4p 1 2v 1 3 7 1 3 1",
      "4 1 n t 1g e 1e 1q 6 3 1 1 2 b s a n p t 7 1b 19 5 2 9 a 5 1 15 n 3 1 8 k g 1 6 3 1 3 1e",
      "1 1 3 2 2 5 2 1*3 o 2 3 b 7 1 e 6 2 6 2 6 9 7 1 7 41 z t 8mc c n 4 1d 6is a6 2 2y 1v 1 1",
      "a 1 d 1 5 1*3 2 1 2 1 30 x a3 i 1s 2 1i 14 c 38 5 1 3r 2x a 1 19 2 v 3 6 2 6 2 6 2 3 z c",
      "1 q 1 j 1 2 1 f 2 e y 3f at t 3 1d 1b w d k 1 8 6 12 a u 2 10 4 8 3k 26 2q 14 8 1g 2k 1g",
      "c 8n 9 m a 8 48 6 2 1 1 18 1 2 3 1 2 n a n 9 v 1t j 1 2 a m a q 1y 1k 6 2 1s 1 f 4 1 3 1",
      "t 16 t 3 t z 8 1 s r 1i a m a j d i 32 21 53 10 12 4 1 1 8g 16 6 2 g 3 1n t a 1 8 m 16 i",
      "1a l r n c 1h 1l 2 2 1 d 19 w p q 10 t 1 2 1 8 z 3 1 c 1c e 4 l 1*3 z i 1 p j 2 1r 7 1*3",
      "4 1 f 1 a 7 1b 12 8 2*3 m 1 7 1 2 1 5 3 1 i 1 c 5 u a 1 1 2 1 1 12 1 1 p 1*3 18 1h i 4 k",
      "3 u 1c k 2 1 1 54 1b 15 4 10 1c k 1 1n 17 d 1 1z r 11 7 55 18 5v 8 2 1 2 8 1 2 1 o f 1*3",
      "2m 8 2 13 g 1*3 s 1 a 14 7 1 l 1 b 1a j 1 i 21 5j x v 9 1 11 h 1 1d u 34 7 1 2 1 12 l 1",
      "p 6 1 2 1 w e 1 93 j f 1 1 d 1 y 3g 1 27 pm 6e 5g 218 2p f ts h 6 p 32z 5 g7 5a1 u 1cy",
      "ft 7 v h 27 h u i 1c 1f l 5 j c3 14 b9 23 5 1 4v 4qg 8 ye 15 a 6wn 83 f 1 t 3 2 1 e 4 8",
      "b0 1s4 2z 5 d 3 9 7 a 6sw 1 dx 19 x 1 8x u i 18 dg r 6d u 2 1 dr 7 1 4 1 2 1 f 1 5h 117",
      "4 1 r 1 2 1 1 2 1 1 a 1 4 1*4 6 1 4 1*6 3 1 2 1 1 2 1*a 2 1 1 2 4 1 7 1 4 1 4 1*3 a 1 h",
      "5 3 1 5 1 h 3es wyo w 37e 6 66 2 4g2 e 5rl f ha 1wi f2 15u 3t7 5 38g"]⟩,
   ⟨"lt titlecaseletter", ["cl 1 2 1 2 1 12 1 5ud 8*5 c 1 f 1 1b 1"]⟩,
   ⟨"lu uppercaseletter",
     ["1t q 2t n 1 7 x 1*1j 2 1*f 2 1*1a 2 1*4 3 2 1*3 2 1 3 2 4 1 2 1 3 3 2 1 2 1*5 2 1 1 2 1",
      "1 2 1 3 1*3 2 3 1 7 1 2 1 2 1 2 1*f 2 1*h 2 1 2 1 1 3 1*1m 7 2 1 2 2 1 1 4 1*8 81 1*3 3",
      "1 8 1 6 1 1 3 1*3 2 1 h 1 9 z 1 2 3 3 1*n 5 1 2 1 1 2 2 1f 1c 1*x 9 1*1i 2 1*c 2 1*2n 2",
      "12 289 12 1 1 5 1 k2 2e 1oz 1 6 17 2 3 8w 1*45 9 1*2p 9 8 8 6 a 8*4 6 b 1*7 8 8 20 4 c 4",
      "c 4 c 5 b 4 7a 1 4 1 3 3 2 3 2 1 3 5 6 1*6 4 2 4 a 2 5 1 1p 1 22k 1c 1c 1 1 3 2 1*6 4 1",
      "1 2 1 8 3 1*2q 8 1*3 4 1 nyl 1*19 j 1*r 3r 1*d 3 1*1p a 1*4 2 1*8 4 1*3 2 1*3 3 1*k 5 1",
      "5 1*f 4 1*3 2 3 1 5 1*7 o 1 h7v q xx 14 3s 10 4c b 1 f 1 7 1 2 1d6 1f 4d m 27u w gw0 w",
      "k2o q*6 1 1 2 2 1 2*3 4 1 8 q*3 2 1 4 2 8 1 7 r 2 1 4 1 5 1 1 3 7 r q*b u p x p x p x p",
      "x p x 1 3ed y"]⟩,
   ⟨"mc spacingmark",
     ["1s3 1 1j 1 2 3 8 4 1 2 1e 2 1m 3 6 2*3 a 1 17 1 1m 3 1u 1 1m 3 8 1 1 2 1h 2 1m 1*3 6 2*3",
      "a 1 2u 2 1 2 3 3 1 3 a 1 15 3 1p 4 1p 2 1m 1 1 5 2 2 1 2 9 2 s 1 e 2 1m 3 5 3 1 3 a 1 16",
      "2 23 3 6 8 i 2 96 2 1r 1 4r 2 4 1 6 1 2 2 p 2 a 3 2 7 l 2 2 6 2 1 a 3 1a0 1 u 1 3l 1 7 8",
      "1 2 9m 4 2 3 4 2 1 6 68 2 1m 1*3 9 1 1 2 8 6 41 1 1c 1 5 1 1 5 1 2 1p 1 u 1 4 2 2 1 1o 1",
      "2 3 1 1 3 2 1c 8 8 2 4r 1 l 1 3sm 2 noz 2 2 1 2g 2 1e g 3y 2 1b 1 1c 2 4 2 2 3 32 2*3 o",
      "1 19 1*3 31 1 2 2 5 1 6l 2 1 2 1 2 1 1 jrn 1*3 3j 1 19 3 4 2 37 1 o 2 1n 1 1c 3 9 2 d 1",
      "2l 3 3 2 1 1 4q 3 v 2 1m 2 1 4 2*3 3 9 1 a 2 2c 3 7 1 2 1 1 4 1 2 1 1 2t 3 8 2 3 1 2y 3",
      "6 1 1 4 2 1 6l 3 6 4 2 1 35 3 8 2 1 1 31 1 1 2 6 1 2v 1 1 2 4 1 79 3 9 1 6v 6 1 2 4 1 2",
      "1*3 3y 3 8 4 4 1 2c 1 t 2 1q 1 bb 1 e 1 2y 1 7 1 2 1 5x 5 4 2 1 1 9q 2 c 1 1c 2 8 2 1 1",
      "d0o 3 2sk 1j 2w 2 j8z 2 6 6"]⟩,
   ⟨"me enclosingmark", ["w8 2 4dw 1 17i 4 1 3 qdn 3"]⟩,
   ⟨"mn nonspacingmark",
     ["lc 34 7n 5 7d 19 1*3 2 1 2 1 1 20 b 1c l g 1 2t 7 2 6 2 2 1 4 z 1 u r 2j b 1m 9 9 1 o 4",
      "1 9 1 3 1 5 17 3 1n 9 16 o 1 w 1j 1*3 4 8 4 1 3 7 a 2 t 1 1m 1 4 4 8 1 k 2 q 1 2 2 1l 1",
      "4 2 4 2 2 3 3 1 u 2 3 1 b 2 1l 1 4 5 1 2 4 1 k 2 m 6 1 1 1m 1 2 1 1 4 8 1 7 2 b 2 u 1 1p",
      "1 c 1 1e 1 3 1 1j 1 1 3 5 3 1 4 7 2 b 2 t 1 1m 1 2 1 6 1 5 2 k 2 s 2 1l 2 4 4 8 1 k 2 t",
      "1 20 1 7 3 1 1 2i 1 2 7 c 8 2q 1 2 9 b 7 21 2 r 1*5 1j e 1 5 1 2 5 b 1 10 9 1 2u 4 1 6 1",
      "2*3 p 2 4 3 g 4 d 1 2 2 6 1 f 1 jj 3 qa 3 t 2 u 2 u 2 1s 2 1 7 8 1 2 b 9 1 19 3 1 1 39 2",
      "y 1 3a 3 4 2 9 1 6 3 63 2 2 1 1m 1 1 7 1*4 2 8 6 a 2 1 1c e 1 g 1d 4 1c 1 1 5 1 1 5 1 14",
      "9 c 2 w 4 2 2 1 3 1k 1 1 2 3 1 1 3 1m 8 2 2 48 3 1 d 1 7 4 1 6 1 3 2 5i 1s k0 d 4 1 3 c",
      "2da 3 3x 1 2o w fe 4 2z 2 n9w 1 4 a w 2 28 2 7k 1 3 1 4 1 p 2 5 1 47 2 q i d 1 12 8 p b",
      "1a 3 1c 1 2 4 2 2 13 1 1v 6 2*4 c 1 8 1 1b 1 1f 1 1 3 2 2 5 2 1 1 16 2 8 1 6m 1 2 1 4 1",
      "fn4 1 kh g*3 r1 1 6a 1 45 5 1ae 3 1 2 5 4 14 3 4 1 4l 2 fx 4 1t 5 8t 2 27 4 1y b 1d 4 3f",
      "1 1i f 15 1 2 2 a 3 1d 4 2 2 7 1 1p 3 10 5 1 8 1q 1 c 2 1g 9 a 4 2 1 2n 3 2 1 1 2 6 1 2",
      "1 4d 1 3 8 l 2 1l 2 3 1 11 7 3 5 1y 6 d 1*5 e 2 2d 8 2 3 1 1 n 1 2c 6 1 1 4 2 1 2 6m 4 6",
      "2 1 2 r 2 2d 8 2 1 1 2 2y 1*3 2 6 1 1 2t 1*3 2 4 1 5 77 9 1 2 74 2 1 1 4 1 40 4 2 2 4 1",
      "w a 14 6 2 4 8 1 9 6 2 3 1a d 1 2 ba 7 1 6 1 1 2a m 2 7 1 2 1 2 3e 6 3 1 1 2 1 7 1 1 20",
      "2 3 1*3 9n 2 b 2 1g 5 5 1*3 n 1 44l 1 6 f 8ug c 3 3 1xc 5 1n 7 t4 1 1r 4 29 1 f5k 2 3mp",
      "1a 2 n f4 3 h 8 2 7 u 4 44 3 1iz 1j 4 1e 8 1 e 1 m 5 1 f 11s 7 1 h 2 7 1 2 1 5 2s 1 4g 7",
      "af 1 1p 4 e4 4 72 2 kg 7 31 7 gzhx 6o"]⟩,
   ⟨"nd decimalnumber digit",
     ["1c a 17q a 3q a 5i a bg a 3a a 3a a 3a a 3a a 3a a 3a a 3a a 3a a 3a a 2o a 3a a 1y a 7q",
      "a 1y a 1fq a 12 a 8c a 3k a 4m a 6 a 52 a 2e a 3q a 6 a r7q a iu a 12 a 5i a m a 2e a ba",
      "a geu a 13a a 1om a 6 a m4 a 3k a 1o a 40 a 7q a 9i a 3a a ae a 2u a 6 k 24 a bq a 2u a",
      "ie a 2e a 6u a 1y a bq a d06 a 1t2 a 2e a 3q a eu a iuu a 250 1e 1ts a bq a dy a 6v a np",
      "a 3o6 a"]⟩,
   ⟨"nl letternumber", ["4j2 3 227 z 2 4 2v2 1 p 9 e 3 nfv a hu8 1h cs 1 8 1 3q 5 6cq 33"]⟩,
   ⟨"no othernumber",
     ["4y 2 5 1 2 3 1th 6 ag 6 3c 3 3p 7 61 7 h 9 c1 a tx k vn a dc 1 1at 1 3 6 6 a 5i g 15 1",
      "k6 1o 26 m hi u 12h 1 wk 4 3u a u 8 1 f w a 13 f n74 6 hjl 19 1t 4 h 2 9h r 10 4 110 8 p",
      "7 13 9 23 5 m 6 4g 2 2 g 2 1a 1s 9 1g 2 u 3 23 5 2w 8 o 8 15 7 96 6 9s v 4e a 16 4 34 7",
      "3q k aj k 11h 2 by 9 o7 j nn l ex2 7 m6 n js9 k c k 30 p 47i 9 pt 1n 1 3 1 4 24 19 1 f",
      "qq d"]⟩,
   ⟨"pc connectorpunctuation", ["2n 1 6an 2 j 1 17tq 2 o 3 6n 1"]⟩,
   ⟨"pd dashpunctuation",
     ["19 1 124 1 1f 1 2td 1 sl 1 1l5 6 2rl 1 2 1 v 2 4 1 s 1 ce 1 j 1 33 1 14ls 2 11 1 a 1 4p",
      "1 2u8 1 8u 1"]⟩,
   ⟨"pe closepunctuation",
     ["15 1 1f 1 v 1 2wt 1*3 1ge 1 1wp 1 1j 1 f 1 hm 1*3 u 1 u6 1*d 28 1 w 1*9 b8 1*l 1s 1*3 x",
      "1 th 1*7 18 1*7 bw 1*9 3 1*7 2 2 14im 1 61 1 t 1*f 3 1 h 1*5 4q 1 1f 1 v 1 2 1 2 1"]⟩,
   ⟨"pf finalpunctuation", ["57 1 671 1 3 1 s 1 2q0 1*3 4 1 2 1 f 1 3 1"]⟩,
   ⟨"pi initialpunctuation", ["4r 1 67g 1 2*3 1 p 1 2q0 1*3 4 1 2 1 f 1 3 1"]⟩,
   ⟨"po otherpunctuation",
     ["x 3 1 3 2 1*4 2 a 2 3 2 r 1 1w 1 5 1 e 2 7 1 ji 1 8 1 cy 6 15 1 1i 1 2 1 2 1 18 2 k 2 1",
      "2 d 1 1 3 22 4 2u 1 17 e 6h 3 1i f v 1 79 2 a 1 3w 1 3c 1 3d 1 au 1 c 1 a7 1 2i 1 a 2 4o",
      "f 1 1 34 1 22 5 4 2 33 6 4r 1 h0 9 lh 1 3g 3 1z 2 4d 3 1 3 11 6 1 4 8p 2 60 2 3k 7 1 6",
      "4g 2 a 7 s 3 3g 4 1n 5 1q 2 1s 8 b 1 n6 2 8*3 9 2 4 2 3 3 b 1*3 a 2hm 4 1 2 34 1 3z 2 4",
      "3 2 1 2 9 1 2 1 1 2 2 a 5 1 a 2 4 1*3 d 2 3 bw 3 1l 1 59 1 mwy 2 7h 3 2r 1 a 1 37 6 ak 4",
      "2e 2 14 3 1 1 1d 2 1b 1 2p d g 2 3g 4 3i 2 g 2 6x 1 g84 7 2 1 m 1 k 2 2 4 3 3 1 4 7 3 6",
      "1 1 2 45 3 1 3 2 1*4 2 a 2 3 2 r 1 10 1 2 2 be 3 ik 1 1c 1 bi 1 kn 1 5j 1 v 1 7k 9 12 1",
      "34 7 1u 7 2h 4 qg 5 18 4 59 7 31 2 1 4 3i 4 1c 2 27 4 4 1 d 1 1 3 2g 6 2z 1 8a 2 1 2 36",
      "5 a 2 1 1 2w 1 6y n 2x 3 s d 24 1 3m 3 70 1 7c 3 4b 1 2k 8 2b 3 1 5 2l a 5z 1 2n 5 16 2",
      "hx 2 22 d 4v 1 vk 5 29o 2 bjv 2 3p 1 1t 5 8 1 fc 3 87 4 93 1 f5o 1 5wn 5 29f 1 ny 2"]⟩,
   ⟨"ps openpunctuation",
     ["14 1 1e 1 v 1 2wu 1*3 1ge 1 1vi 1 3 1 12 1 1j 1 f 1 hm 1*3 u 1 u6 1*d 28 1 w 1*9 b8 1*l",
      "1s 1*3 x 1 th 1*7 p 1 i 1*7 bw 1*9 3 1*7 2 1 14ip 1 5z 1 t 1*f 3 1 h 1*5 4q 1 1e 1 v 1 3",
      "1 2 1"]⟩,
   ⟨"sc currencysymbol",
     ["10 1 3h 4 yx 1 3f 1 du 2 du 2 7 1 6t 1 7b 1 g5 1 1wb 1 1qc x qrb 1 gxv 1 30 1 4a 1 63 2",
      "3 2 6ba 4 12ji 1 1ww 1"]⟩,
   ⟨"sk modifiersymbol",
     ["2m 1*3 1z 1 6 1 4 1 3 1 eh 4 c e 5 7 1*3 h 39 1 e 2 zm 1 4l0 1 1 3 b 3 d 3 d 3 d 2 3a4 2",
      "ndv n 9 2 2v 2 r4 1 e 2 fuu h or 1*3 4i 1 1c7r 5"]⟩,
   ⟨"sm mathsymbol",
     ["17 1 g 3 1p 1*3 19 1 4 1 11 1 v 1 la 1 en 3 56j 1 d 1 13 3 d 3 3v 1 13 5 6 1 1w 5 5 2 4",
      "1 2 1 2 1 7 1 v 2 2 1*3 v 7g w 2 2i 1 u p 14 6 d1 1 9 1 1i 8 33 1 9c 5 2 v a g 74 3n m",
      "1r 4 w 2 76 1c l 2 6 1524 1 mw 1 1 3 4k 1 g 3 1p 1*3 3n 1 6 4 2ox 2 13qp 1 p 1 v 1 p 1 v",
      "1 p 1 v 1 p 1 v 1 p 1 4ks 2"]⟩,
   ⟨"so othersymbol",
     ["4m 1 2 1 4 1*3 r5 1 7e 2 3j 2 5q 1 a 1 j 2 6v 1 eb 1 ad 1 3m 6 1 1 3o 1 5r 1 15 1 av 3 f",
      "1 1 3 2 6 k 1*5 3p 8 1 6 1 2 5 4 5h 2 kw a k3 1 k2 1 4d y 9t a 9 9 137 2 1 4 1 2 a 1 1 2",
      "6 6 1*6 4 1 b 2 e 1 1 2 1 1 1m 2 9 5 2 4 1 2 1 2 1 7 1 v 2 2 1*3 v 7g 8 4 k 2 7 2 29 1 u",
      "p 14 6 20 m b 29 26 m 53 1 9 1 1i 8 33 1 6w 18 18 1s 74 e8 1c l 2 6 13 2 w 1 2x 6d 6 9x",
      "2 1a q 1 2h c 5y q g 4 1 d 2 c 1 l 2 6 2 9c 2 4 a w 12 9 1 g v b u 8 1 f w a 13 f 8w 534",
      "1s h3k 1j o1 4 a 2 1 1 fx 3 gcm g 3j 1 19 3 dg 1 3 1 4 2 d 2 8p 9 1l h 2 3 1 d 3 1 1b 19",
      "1a2 2 gf 1 2gm 1 1p1 8 4 h eve 4 5 1 g2e 1 31f 6o g c4 4c 38 1o 6u a 13 2 1o 5 3 m 2 7 u",
      "4 1p l 1u 3 1 56 2f x5 e8 1j 4 1e 8 1 e 1 2 1c8 1 28s 1 3l 1 k1 18 4 2s c f 2 f 1 f 1 11",
      "n 4h 1k t d 18 4 9 7 2 e 6 4a 6z 5 k8 4 h 3 d 3 3b 4 2n 6 c 4 1 f c 4 1k 8 a 6 14 8 u 2",
      "c 4 2 1q 9g c e 2 d 3 a 5 1k 7 f 2 b 6 9 7 43 1 2k"]⟩,
   ⟨"zl lineseparator", ["6co 1"]⟩,
   ⟨"zp paragraphseparator", ["6cp 1"]⟩,
   ⟨"zs spaceseparator", ["w 1 3j 1 4bj 1 1vj b 10 1 1b 1 334 1"]⟩]

/-- The categories that a common name stands for. -/
def categoryGroups : Table :=
  [⟨"lc casedletter", ["ll lt lu"]⟩,
   ⟨"l letter", ["ll lm lo lt lu"]⟩,
   ⟨"m mark combiningmark", ["mc me mn"]⟩,
   ⟨"n number", ["nd nl no"]⟩,
   ⟨"c other", ["cc cf cn co"]⟩,
   ⟨"p punct punctuation", ["pc pd pe pf pi po ps"]⟩,
   ⟨"z separator", ["zl zp zs"]⟩,
   ⟨"s symbol", ["sc sk sm so"]⟩]

/-- The characters of a category by its short name. -/
def category (code : String) : CharSet := (categories.set? code).getD .empty

/-- The characters of some categories. -/
def categoriesOf (codes : List String) : CharSet := CharSet.unions (codes.map category)

/-- The characters that a category or a group of them stands for, by a name in lower case without
    separators. -/
def category? (name : String) : Option CharSet :=
  match name with
  | "any" => some .full
  | "assigned" => some (category "cn").compl
  | "ascii" => some .ascii
  | _ =>
    match categories.set? name with
    | some set => some set
    | none => (categoryGroups.entry? name).map fun group =>
      categoriesOf ((tableWords group.rows).map String.ofList)

end Unicode

end Restyle
